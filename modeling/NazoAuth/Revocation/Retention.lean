import NazoAuth.Lib.Except
import NazoAuth.Revocation.Deactivation

/-!
# Access-token state — a revocation outlives the acceptance of its token

`Covers` says that a fact is stored with at least a given deadline. A revocation makes the facts
cover the expiry of the token and the largest skew, however often it is repeated and with whatever
deadline; nothing but a cleanup takes that away, and only when its clock has reached the deadline
(`factEffect_of_exec`). A verifier reads the same clock, in whole seconds, before it looks for the
facts: one that reads it after such a cleanup rejects the token.
-/

namespace NazoAuth.Revocation

open Lib

variable {f : Formats} {w w' : World} {op : Op} {out : Outcome} {log : Log} {t : Revocations}

/-! ## Facts -/

/-- A fact is stored under the key, until the deadline at least. -/
def Covers (t : Revocations) (k : Uuid × Digest) (deadline : Instant) : Prop :=
  ∃ r, t.find? k = some r ∧ deadline ≤ r.expiresAt

theorem covers_upsert (t : Revocations) (r : RevocationRow) :
    (∀ k deadline, Covers t k deadline → Covers (upsertAccessTokenRevocation t r) k deadline)
      ∧ Covers (upsertAccessTokenRevocation t r) r.key r.expiresAt := by
  unfold upsertAccessTokenRevocation
  cases hi : t.insert? r with
  | some =>
    refine ⟨fun k deadline h => ?_, r, ?_, le_refl _⟩
    · obtain ⟨s, hs, hd⟩ := h
      exact ⟨s, Table.find?_eq_some.mpr ⟨Table.rows_of_insert? hi ▸ List.mem_cons_of_mem _ (Table.mem_of_find? hs),
        Table.find?_key hs⟩, hd⟩
    · exact Table.find?_eq_some.mpr ⟨Table.rows_of_insert? hi ▸ List.mem_cons_self, rfl⟩
  | none =>
    obtain ⟨s₀, hs₀⟩ := Table.insert?_eq_none.mp hi
    simp only [Covers, Table.find?_update]
    refine ⟨fun k deadline h => ?_, _, by rw [hs₀]; rfl, ?_⟩
    · obtain ⟨s, hs, hd⟩ := h
      refine ⟨_, by rw [hs]; rfl, ?_⟩
      dsimp only
      split_ifs
      · exact le_max_of_le_left hd
      · exact hd
    · dsimp only
      split_ifs with hlt
      · exact le_max_right _ _
      · simp only [Table.find?_key hs₀, decide_true, Bool.true_and, decide_eq_true_eq, not_lt] at hlt
        exact hlt

theorem covers_upserts (rows : List RevocationRow) (t : Revocations) :
    (∀ k deadline, Covers t k deadline → Covers (upsertAccessTokenRevocations t rows) k deadline)
      ∧ ∀ r ∈ rows, Covers (upsertAccessTokenRevocations t rows) r.key r.expiresAt := by
  induction rows generalizing t with
  | nil => exact ⟨fun _ _ h => h, by simp⟩
  | cons r rows ih =>
    obtain ⟨hkeep, hnew⟩ := ih (upsertAccessTokenRevocation t r)
    obtain ⟨hkeep₁, hnew₁⟩ := covers_upsert t r
    refine ⟨fun k d h => hkeep k d (hkeep₁ k d h), fun s hs => ?_⟩
    rcases List.mem_cons.mp hs with rfl | hs
    · exact hkeep _ _ hnew₁
    · exact hnew s hs

/-- The rows have one for the key with at least the deadline. -/
def Lists (rows : List RevocationRow) (k : Uuid × Digest) (deadline : Instant) : Prop :=
  ∃ r ∈ rows, r.key = k ∧ deadline ≤ r.expiresAt

variable {now : Instant} {tenantId : Uuid}

theorem lists_addRevocation {acc news : List RevocationRow} {row : OwnedAccessTokenRow}
    (h : addRevocation f tenantId now acc row = some news) :
    (∀ k deadline, Lists acc k deadline → Lists news k deadline)
      ∧ Lists news (tenantId, f.blake3 row.accessTokenJti) row.expiresAt := by
  unfold addRevocation at h
  dsimp only at h
  split at h
  · cases h
    refine ⟨fun k d ⟨r, hr, hk, hd⟩ => ⟨r, List.mem_append_left _ hr, hk, hd⟩, ?_⟩
    exact ⟨_, List.mem_append_right _ (.head _), rfl, le_refl _⟩
  · rename_i existing hfind
    split at h
    · cases h
    cases h
    refine ⟨fun k d ⟨r, hr, hk, hd⟩ => ⟨_, List.mem_map_of_mem hr, ?_⟩, _,
      List.mem_map_of_mem (List.mem_of_find?_eq_some hfind), ?_⟩
    · split_ifs
      · exact ⟨hk, le_max_of_le_left hd⟩
      · exact ⟨hk, hd⟩
    · have hkey : existing.key = (tenantId, f.blake3 row.accessTokenJti) := by
        simpa [RevocationRow.key] using List.find?_some hfind
      rw [if_pos (by simpa [RevocationRow.key] using hkey)]
      exact ⟨hkey, le_max_right _ _⟩

theorem lists_deduplicated {rows : List OwnedAccessTokenRow} {acc news : List RevocationRow}
    (h : rows.foldlM (addRevocation f tenantId now) acc = some news) :
    (∀ k deadline, Lists acc k deadline → Lists news k deadline)
      ∧ ∀ row ∈ rows, Lists news (tenantId, f.blake3 row.accessTokenJti) row.expiresAt := by
  induction rows generalizing acc with
  | nil =>
    cases h
    exact ⟨fun _ _ h => h, by simp⟩
  | cons row rows ih =>
    obtain ⟨acc₁, hfirst, hrest⟩ := Option.bind_eq_some_iff.mp h
    obtain ⟨hkeep₁, hnew₁⟩ := lists_addRevocation hfirst
    obtain ⟨hkeep, hnew⟩ := ih hrest
    refine ⟨fun k d hl => hkeep k d (hkeep₁ k d hl), fun r hr => ?_⟩
    rcases List.mem_cons.mp hr with rfl | hr
    · exact hkeep _ _ hnew₁
    · exact hnew r hr

theorem covers_revokeBatches {fuel : Nat} {t' : Revocations} {rows : List OwnedAccessTokenRow}
    (hfuel : rows.length ≤ fuel) (h : revokeBatches f tenantId now fuel t rows = some t') :
    (∀ k deadline, Covers t k deadline → Covers t' k deadline)
      ∧ ∀ row ∈ rows, Covers t' (tenantId, f.blake3 row.accessTokenJti) row.expiresAt := by
  induction fuel generalizing t rows with
  | zero =>
    obtain rfl : rows = [] := List.length_eq_zero_iff.mp (Nat.le_zero.mp hfuel)
    cases h
    exact ⟨fun _ _ h => h, by simp⟩
  | succ fuel ih =>
    unfold revokeBatches at h
    by_cases hempty : rows.isEmpty = true
    · obtain rfl := List.isEmpty_iff.mp hempty
      cases h
      exact ⟨fun _ _ h => h, by simp⟩
    rw [if_neg hempty] at h
    split at h
    · cases h
    rename_i news hnews
    have hdrop : (rows.drop 512).length ≤ fuel := by
      rw [List.length_drop]
      omega
    obtain ⟨hkeep, hnew⟩ := ih hdrop h
    obtain ⟨hkeep₁, hnew₁⟩ := covers_upserts news t
    refine ⟨fun k d hc => hkeep k d (hkeep₁ k d hc), fun row hrow => ?_⟩
    rw [← List.take_append_drop 512 rows] at hrow
    rcases List.mem_append.mp hrow with htake | hrest
    · obtain ⟨r, hr, hk, hd⟩ := (lists_deduplicated hnews).2 row htake
      obtain ⟨s, hs, hle⟩ := hkeep _ _ (hnew₁ r hr)
      exact ⟨s, hk ▸ hs, hd.trans hle⟩
    · exact hnew row hrest

theorem covers_cleanup {k : Uuid × Digest} {held : List (Uuid × Digest)} {deadline cutoff : Instant}
    (h : Covers t k deadline) : Covers (cleanupRevocations t held cutoff) k deadline ∨ deadline ≤ cutoff := by
  obtain ⟨r, hr, hd⟩ := h
  by_cases hdue : ((dueRevocations t held cutoff).map RevocationRow.key).contains r.key = true
  · obtain ⟨r', hr', hkey⟩ := List.mem_map.mp (List.contains_iff_mem.mp hdue)
    have hmem := List.mem_filter.mp ((List.mem_insertionSort _).mp (List.mem_of_mem_take hr'))
    obtain rfl : r' = r := List.inj_on_of_nodup_map t.nodup hmem.1 (Table.mem_of_find? hr) hkey
    have hle := hmem.2
    simp only [Bool.and_eq_true, decide_eq_true_eq] at hle
    exact .inr (hd.trans hle.1)
  · refine .inl ⟨r, ?_, hd⟩
    rw [cleanupRevocations, Table.find?_delete, hr]
    simpa [Option.filter] using hdue

/-! ## Steps -/

/-- The key and the deadline that a recorded token needs. -/
def Recorded.key (f : Formats) (r : Recorded) : Uuid × Digest := (r.tenantId, f.blake3 r.jti)

def Recorded.deadline (r : Recorded) : Instant := seconds (r.exp + maxAccessTokenClockSkewSeconds)

inductive FactEffect (f : Formats) (w : World) (op : Op) : World × Outcome → Prop
  | same {w' : World} {out : Outcome} : w'.revocations = w.revocations →
      (∀ tokens, out ≠ .recorded tokens) → FactEffect f w op (w', out)
  | recorded {w' : World} {tokens} :
      (∀ k deadline, Covers w.revocations k deadline → Covers w'.revocations k deadline) →
      (∀ r ∈ tokens, Covers w'.revocations (r.key f) r.deadline ∧ r.exp ≤ maxTimestamp) →
      FactEffect f w op (w', .recorded tokens)
  | cleaned {held} : op.action = .cleanup held →
      FactEffect f w op ({ w with revocations := cleanupRevocations w.revocations held op.now }, .done)

theorem fromTimestamp_eq_some {secs : Int} {t : Instant} (h : fromTimestamp secs = some t) :
    t = seconds secs ∧ secs ≤ maxTimestamp := by
  unfold fromTimestamp at h
  split_ifs at h with hrange
  simp only [Bool.and_eq_true, decide_eq_true_eq] at hrange
  exact ⟨(Option.some.inj h).symm, hrange.2⟩

theorem seconds_add (a b : Int) : seconds (a + b) = seconds a + seconds b := by
  simp only [seconds]
  omega

theorem factEffect_revoke {clientId : Uuid} {jti : String} {exp : Int} :
    FactEffect f w op (revoke_ f w tenantId clientId jti exp op.now) := by
  unfold revoke_
  split
  · exact .same rfl (by simp)
  rename_i deadline hdeadline
  obtain ⟨expiresAt, hexp, hdead⟩ := Option.bind_eq_some_iff.mp hdeadline
  obtain ⟨rfl, hmax⟩ := fromTimestamp_eq_some hexp
  unfold accessTokenRevocationDeadline at hdead
  split_ifs at hdead
  cases hdead
  obtain ⟨hkeep, hnew⟩ := covers_upserts
    [⟨tenantId, f.blake3 jti, clientId, op.now, seconds exp + seconds maxAccessTokenClockSkewSeconds⟩]
    w.revocations
  refine .recorded hkeep fun r hr => ?_
  obtain rfl := List.mem_singleton.mp hr
  refine ⟨?_, hmax⟩
  rw [Recorded.deadline, seconds_add]
  exact hnew _ (.head _)

theorem factEffect_revokeOwner {tokens : List OwnedToken} {revocations : Revocations}
    (hstored : ∀ t ∈ tokens, (fromTimestamp t.exp).isSome = true)
    (he : revokeAccessTokensForOwner f w.revocations tenantId tokens op.now = some revocations) :
    FactEffect f w op ({ w with revocations := revocations },
      .recorded ((liveTokens tokens op.now).map fun t => ⟨tenantId, t.jti, t.exp⟩)) := by
  obtain ⟨hkeep, hnew⟩ := covers_revokeBatches (le_refl _) he
  refine .recorded hkeep fun r hr => ?_
  obtain ⟨token, htoken, rfl⟩ := List.mem_map.mp hr
  obtain ⟨expiresAt, hexp⟩ := Option.isSome_iff_exists.mp (hstored token (List.mem_filter.mp htoken).1)
  refine ⟨?_, (fromTimestamp_eq_some hexp).2⟩
  rw [Recorded.deadline, seconds_add]
  exact hnew _ (List.mem_map_of_mem htoken)

/-- **What one step does to the facts.** -/
theorem factEffect_of_exec (he : exec f w op = (w', out)) : FactEffect f w op (w', out) := by
  have hquiet : Quiet out → ∀ tokens, out ≠ .recorded tokens := by
    rintro hq tokens rfl
    exact hq
  cases effect_of_exec he with
  | same hq | dropped hq => exact .same rfl (hquiet hq)
  | updatedClient | updatedUser => exact .same rfl fun tokens h => by split_ifs at h
  | facts hfacts =>
    rw [← he, exec]
    cases ha : op.action with
    | revoke => exact factEffect_revoke
    | revokeOwner tenantId tokens =>
      dsimp only
      split_ifs with hstored
      · exact .same rfl (by simp)
      split
      · exact .same rfl (by simp)
      rename_i revocations hrev
      refine factEffect_revokeOwner (fun t ht => ?_) hrev
      cases hsome : (fromTimestamp t.exp).isSome with
      | true => rfl
      | false => exact absurd (List.any_eq_true.mpr ⟨t, ht, by simpa using hsome⟩) hstored
    | cleanup => exact .cleaned ha
    | _ => simp [ha, Action.changesFacts] at hfacts
  | _ => exact .same rfl (by simp)

/-! ## Histories -/

/-- A cleanup of the history has reached the deadline. -/
def CleanedBy (log : Log) (deadline : Instant) : Prop :=
  ∃ e ∈ log, (∃ held, e.1.action = .cleanup held) ∧ deadline ≤ e.1.now

theorem CleanedBy.cons {deadline : Instant} (e : Op × Outcome) : CleanedBy log deadline →
    CleanedBy (e :: log) deadline
  | ⟨e', he', h⟩ => ⟨e', .tail _ he', h⟩

/-- A recorded token is covered until a cleanup of the history has reached its deadline. -/
def RetentionInv (f : Formats) (log : Log) (w : World) : Prop :=
  ∀ e ∈ log, ∀ tokens, e.2 = .recorded tokens → ∀ r ∈ tokens, r.exp ≤ maxTimestamp
    ∧ (Covers w.revocations (r.key f) r.deadline ∨ CleanedBy log r.deadline)

theorem retentionInv_step (hi : RetentionInv f log w) (he : exec f w op = (w', out)) :
    RetentionInv f ((op, out) :: log) w' := by
  -- a step that takes away only what a cleanup has reached
  have hold : (∀ k d, Covers w.revocations k d → Covers w'.revocations k d ∨ CleanedBy ((op, out) :: log) d) →
      ∀ e ∈ log, ∀ tokens, e.2 = .recorded tokens → ∀ r ∈ tokens, r.exp ≤ maxTimestamp
        ∧ (Covers w'.revocations (r.key f) r.deadline ∨ CleanedBy ((op, out) :: log) r.deadline) := by
    intro hkeep e hmem tokens hout r hr
    obtain ⟨hmax, hcov | hcleaned⟩ := hi e hmem tokens hout r hr
    · exact ⟨hmax, hkeep _ _ hcov⟩
    · exact ⟨hmax, .inr (hcleaned.cons _)⟩
  intro e hmem tokens hout r hr
  cases factEffect_of_exec he with
  | same hsame hno =>
    rcases List.mem_cons.mp hmem with rfl | hmem
    · exact absurd hout (hno tokens)
    · exact hold (fun k d h => .inl (hsame ▸ h)) e hmem tokens hout r hr
  | recorded hkeep hnew =>
    rcases List.mem_cons.mp hmem with rfl | hmem
    · cases hout
      exact ⟨(hnew r hr).2, .inl (hnew r hr).1⟩
    · exact hold (fun k d h => .inl (hkeep k d h)) e hmem tokens hout r hr
  | cleaned haction =>
    rcases List.mem_cons.mp hmem with rfl | hmem
    · cases hout
    · exact hold (fun k d h => (covers_cleanup h).imp_right fun hle => ⟨_, .head _, ⟨_, haction⟩, hle⟩) e hmem
        tokens hout r hr

theorem retentionInv_of_run (hr : Run (exec f) World.initial log w) : RetentionInv f log w :=
  Run.invariant (fun _ _ _ => trivial) (fun _ he => absurd he List.not_mem_nil)
    (fun _ _ _ _ _ _ _ hi he => retentionInv_step hi he) hr trivial

/-! ## Result -/

/-- Recorded revocations, and the verifiers that look for them. -/
structure RevocationOutlives (f : Formats) (log : Log) (w : World) : Prop where
  /-- While a verifier with any permitted skew finds the token in time by a clock that no cleanup was ahead of, the
  fact is stored. -/
  present : ∀ now, (∀ e ∈ log, ∀ held, e.1.action = .cleanup held → e.1.now ≤ now) →
    ∀ e ∈ log, ∀ tokens, e.2 = .recorded tokens → ∀ r ∈ tokens, ∀ skew, 0 ≤ skew →
      skew ≤ maxAccessTokenClockSkewSeconds → saturate (timestamp now - skew) < r.exp →
      w.accessTokenRevoked f r.tenantId r.jti = true
  /-- A verifier accepts the token only if a cleanup, with a clock after the one that the verifier has read, had
  reached its deadline before the look-up. -/
  refused : ∀ newer op verified older, log = newer ++ (op, .verified (.ok verified)) :: older →
    ∀ verifier constraint accessToken readAt, op.action = .verify verifier constraint accessToken readAt →
    ∀ claims, verifier.decode accessToken = .ok claims →
    ∀ e ∈ older, ∀ tokens, e.2 = .recorded tokens → ∀ r ∈ tokens,
      claims.tenantId.bind f.parse = some r.tenantId → claims.jti = r.jti → claims.exp = r.exp →
      ∃ e' ∈ older, (∃ held, e'.1.action = .cleanup held) ∧ readAt < e'.1.now ∧ r.deadline ≤ e'.1.now

theorem revoked_of_fact {key : RevocationLookupKey} (h : w.accessTokenRevoked f tenantId key.jti = true) :
    accessTokenStateRevoked f w tenantId key = true := by
  unfold accessTokenStateRevoked
  simp only [h, Bool.or_true]
  split
  · rfl
  split_ifs
  · rfl
  · split
    · rfl
    · split <;> rfl

theorem verified_of_ok {v : ResourceServerVerifier} {claims : AccessTokenClaims} {now : Int}
    {token : VerifiedAccessToken} (h : v.validateClaims claims now = .ok token) :
    saturate (now - v.clockSkewSeconds) < claims.exp ∧ token.tenantId = claims.tenantId
      ∧ token.jti = claims.jti := by
  obtain ⟨_, -, h⟩ := of_bind h
  obtain ⟨_, -, h⟩ := of_bind h
  split at h
  · cases h
  obtain ⟨_, -, h⟩ := of_bind h
  obtain ⟨_, hexp, h⟩ := of_bind h
  obtain ⟨_, -, h⟩ := of_bind h
  dsimp only at h
  split at h
  · cases h
  obtain ⟨_, -, h⟩ := of_bind h
  obtain ⟨_, -, h⟩ := of_bind h
  obtain rfl := pure_eq_ok.mp h
  refine ⟨?_, rfl, rfl⟩
  unfold require at hexp
  split_ifs at hexp with hlt
  exact of_decide_eq_true hlt

/-- The whole-second clock is before the expiry with the skew, so the clock itself is before the
deadline. -/
theorem before_deadline {skew exp : Int} (hskew : skew ≤ maxAccessTokenClockSkewSeconds)
    (hmax : exp ≤ maxTimestamp) (h : saturate (timestamp now - skew) < exp) :
    now < seconds (exp + maxAccessTokenClockSkewSeconds) := by
  have hlt : timestamp now - skew < exp := lt_of_saturate_lt h (lt_of_le_of_lt hmax (by decide))
  calc now < seconds (timestamp now + 1) := lt_seconds_timestamp now
    _ ≤ seconds (exp + maxAccessTokenClockSkewSeconds) := seconds_le (by omega)

/-- A token that is accepted was in time, and no fact was found. -/
theorem accepted_of_authorizeAt {v : ResourceServerVerifier}
    {constraint : VerifiedAccessToken → Except String Unit} {accessToken : String}
    {claims : AccessTokenClaims} {token : VerifiedAccessToken} {secs : Int}
    (hdecode : v.decode accessToken = .ok claims) (htenant : claims.tenantId.bind f.parse = some tenantId)
    (h : authorizeAt v constraint (isRevoked f w) accessToken secs = .ok token) :
    saturate (secs - v.clockSkewSeconds) < claims.exp ∧ w.accessTokenRevoked f tenantId claims.jti = false := by
  unfold authorizeAt at h
  split at h
  · cases h
  rename_i verified hverify
  obtain ⟨claims', hdecode', hvalid⟩ := of_bind hverify
  cases hdecode.symm.trans hdecode'
  obtain ⟨htime, htenant', hjti⟩ := verified_of_ok hvalid
  split at h
  · cases h
  rename_i tenantText hfilter
  have htext : claims.tenantId = some tenantText := htenant' ▸ (Option.filter_eq_some_iff.mp hfilter).1
  rw [htext, Option.bind_some] at htenant
  split at h
  · cases h
  refine ⟨htime, Bool.eq_false_iff.mpr fun hfact => ?_⟩
  rw [isRevoked, htenant, Option.map_some, revoked_of_fact (by rw [hjti]; exact hfact)] at h
  cases h

/-- **A revocation outlives the acceptance of its token**, as its verifiers read their clocks. -/
theorem revocation_outlives (f : Formats) (log : Log) (w : World)
    (hr : Run (exec f) World.initial log w) : RevocationOutlives f log w where
  present := by
    intro now hnow e hmem tokens hout r hrec skew _ hskew htime
    obtain ⟨hmax, ⟨row, hrow, -⟩ | ⟨e', he', ⟨held, haction⟩, hle⟩⟩ :=
      retentionInv_of_run hr e hmem tokens hout r hrec
    · exact Option.isSome_iff_exists.mpr ⟨row, hrow⟩
    · exact absurd (hle.trans (hnow e' he' held haction)) (not_le.mpr (before_deadline hskew hmax htime))
  refused := by
    intro newer op verified older hlog v constraint accessToken readAt haction claims hdecode e hmem tokens hout r
      hrec htenant hjti hexp
    rw [hlog] at hr
    obtain ⟨_, hr, -⟩ := hr.split
    cases hr with
    | cons hr he =>
      rw [exec, haction] at he
      have hok := Outcome.verified.inj (Prod.mk.inj he).2
      obtain ⟨htime, hfact⟩ := accepted_of_authorizeAt hdecode htenant hok
      obtain ⟨hmax, ⟨row, hrow, -⟩ | ⟨e', he', hcleanup, hle⟩⟩ := retentionInv_of_run hr e hmem tokens hout r hrec
      · rw [hjti] at hfact
        exact absurd (Option.isSome_iff_exists.mpr ⟨row, hrow⟩) (Bool.eq_false_iff.mp hfact)
      · exact ⟨e', he', hcleanup, lt_of_lt_of_le (before_deadline v.skew_range.2 hmax (hexp ▸ htime)) hle, hle⟩

/-! ## The last second of a token -/

def graceFormats : Formats where
  blake3 := fun s => BitVec.ofNat 256 s.length
  parse := parseUuid
  parse_text := parseUuid_uuidText

def graceClaims : AccessTokenClaims where
  clientEpoch := none
  userEpoch := none
  userId := none
  subjectType := none
  iss := "issuer"
  sub := "subject"
  tenantId := some (uuidText 1)
  aud := .str "resource"
  clientId := "web"
  scope := ""
  tokenUse := none
  jti := "jti"
  nbf := none
  exp := 100
  cnf := none

def graceVerifier : ResourceServerVerifier where
  issuer := "issuer"
  audiences := ["resource"]
  requiredScopes := []
  confirmation := .optional
  clockSkewSeconds := 60
  skew_range := by decide
  decode := fun _ => .ok graceClaims

def graceRequest (readAt : Instant) : Action := .verify graceVerifier (fun _ => .ok ()) "token" readAt

def graceRun (ops : List Op) : Log × World := execAll (exec graceFormats) World.initial [] ops

/-- What the verifiers of a history have answered, newest first; nothing if the token was
accepted. -/
def graceResults (log : Log) : List (Option AuthorizationError) :=
  log.filterMap fun e => match e.2 with
    | .verified (.ok _) => some none
    | .verified (.error error) => some (some error)
    | _ => none

/-- A token is revoked, then revoked again with an earlier expiry. It is presented in its last
second, after a cleanup, and once more when a cleanup has deleted the fact. -/
def graceOps : List Op :=
  [⟨.revoke 1 7 "jti" 100, seconds 20⟩, ⟨.revoke 1 7 "jti" 50, seconds 30⟩, ⟨.cleanup [], seconds 159⟩,
    ⟨graceRequest (seconds 159 + 999998), seconds 159 + 999999⟩, ⟨.cleanup [], seconds 160⟩,
    ⟨graceRequest (seconds 160), seconds 160⟩]

theorem revocation_outlives_grace : RevocationOutlives graceFormats (graceRun graceOps).1 (graceRun graceOps).2
      ∧ graceResults (graceRun graceOps).1 = [some (.invalidToken .expired), some .revoked]
      ∧ (graceRun graceOps).2.revocations.rows = [] :=
  ⟨revocation_outlives graceFormats (graceRun graceOps).1 (graceRun graceOps).2
    (run_execAll _ _), by decide +kernel, by decide +kernel⟩

/-- A verifier reads its clock in the last microsecond of a revoked token. A cleanup runs before the
look-up. -/
def overtakenOps : List Op :=
  [⟨.revoke 1 7 "jti" 100, seconds 20⟩, ⟨.cleanup [], seconds 160⟩,
    ⟨graceRequest (seconds 159 + 999999), seconds 160 + 500⟩]

/-- The times of the token were checked, and its fact is gone: it is accepted. -/
theorem overtaken_look_up_accepts :
    Run (exec graceFormats) World.initial (graceRun overtakenOps).1 (graceRun overtakenOps).2
      ∧ (graceRun overtakenOps).1.Pairwise (fun newer older => older.1.now ≤ newer.1.now)
      ∧ (graceRun overtakenOps).1.any (fun e => match e.2 with
        | .recorded [r] => decide (r.jti = graceClaims.jti ∧ r.exp = graceClaims.exp)
        | _ => false) = true
      ∧ graceResults (graceRun overtakenOps).1 = [none] :=
  ⟨run_execAll _ _, by decide +kernel, by decide +kernel, by decide +kernel⟩

end NazoAuth.Revocation
