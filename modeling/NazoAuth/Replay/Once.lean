import NazoAuth.Replay.History

/-!
# Replay — what is accepted is accepted once

A marker keeps its key until its deadline (`countP_marked_le_one`), so something is accepted once if
its marker outlives the time in which it can be accepted.
-/

namespace NazoAuth.Replay

open Lib

variable {cfg : Config} {store₀ store : Store} {log : List (Op × Outcome)}

/-- Signatures are accepted for a minute, proofs at a resource server for ten seconds. -/
def minuteConfig : Config where
  formats := ⟨id, id, some, fun _ => true⟩
  issuer := "https://as.example"
  fapiMaxAgeSeconds := 60
  dpop := ⟨2, 10, none⟩

def attempts (ops : List Op) : List (Op × Outcome) × Store := execAll (exec minuteConfig) (fun _ => none) [] ops

/-! ## Absolute intervals -/

section Absolute

def carriesOnly (request : Request) (other : Request) : Bool := other = request

variable {e : Op × Outcome} {iat d : Int} {key : String} {op : Op}

theorem fromVerifiedIssuedAt_eq_some {window : ClientAttestationProofWindow}
    (h : fromVerifiedIssuedAt iat = some window) : window = ⟨iat - 60, iat + 301⟩ := by
  simp only [fromVerifiedIssuedAt, checked, Option.bind_eq_bind, Option.bind_eq_some_iff,
    Option.ite_none_right_eq_some, Option.some.injEq] at h
  obtain ⟨notBefore, ⟨-, rfl⟩, last, ⟨-, rfl⟩, expiresAt, ⟨-, rfl⟩, rfl⟩ := h
  rw [Int.add_assoc]
  rfl

theorem granted_clientAttestation {clientId jti : String}
    (hrequest : op.request = .clientAttestation clientId jti iat) (h : Granted cfg op key d) :
    key = clientAttestationReplay cfg.formats clientId jti ∧ iat - 60 ≤ unixSeconds op.now
      ∧ unixSeconds op.now < iat + 301 ∧ deadline op.now (.exat (iat + 301)) = some d := by
  obtain ⟨expiration, hset, hd⟩ := h
  simp only [consumption, hrequest, consumeClientAttestationProof] at hset
  split at hset
  · cases hset
  rename_i window hwindow
  obtain rfl := fromVerifiedIssuedAt_eq_some hwindow
  split_ifs at hset
  unfold clientAttestationProofScript at hset
  split_ifs at hset with hinterval
  simp only [Bool.or_eq_true, decide_eq_true_eq] at hinterval
  cases hset
  exact ⟨rfl, by omega, by omega, hd⟩

theorem granted_requestObject (key' : String) {expiresAt : Int}
    (hconsumption : consumption cfg op = requestObjectReplayScript key' expiresAt (unixSeconds op.now))
    (h : Granted cfg op key d) :
    key = key' ∧ unixSeconds op.now < expiresAt ∧ deadline op.now (.exat expiresAt) = some d := by
  obtain ⟨expiration, hset, hd⟩ := h
  rw [hconsumption, requestObjectReplayScript] at hset
  split_ifs at hset with hover
  cases hset
  exact ⟨rfl, by omega, hd⟩

/-- Proofs and request objects with an absolute interval. -/
structure AcceptedOnce (log : List (Op × Outcome)) : Prop where
  attestation : ∀ clientId jti iat, log.countP (acceptedOf (carriesOnly (.clientAttestation clientId jti iat))) ≤ 1
  attestationInterval : ∀ e ∈ log, ∀ clientId jti iat, e.1.request = .clientAttestation clientId jti iat →
    e.2.isAccepted = true → iat - 60 ≤ unixSeconds e.1.now ∧ unixSeconds e.1.now < iat + 301
  jar : ∀ clientId jti expiresAt, log.countP (acceptedOf (carriesOnly (.jar clientId jti expiresAt))) ≤ 1
  cibaRequestObject : ∀ clientId jti expiresAt,
    log.countP (acceptedOf (carriesOnly (.cibaRequestObject clientId jti expiresAt))) ≤ 1
  requestObjectInterval : ∀ e ∈ log, ∀ clientId jti expiresAt,
    e.1.request = .jar clientId jti expiresAt ∨ e.1.request = .cibaRequestObject clientId jti expiresAt →
    e.2.isAccepted = true → unixSeconds e.1.now < expiresAt
  /-- An identifier that comes with another interval is taken until the end of the first one. -/
  taken : log.Pairwise fun newer older => ∀ key d d', newer.2 = .accepted key d →
    older.2 = .accepted key d' → d' < storeNow newer

theorem granted_of_accepted (hrun : Run (exec cfg) store₀ log store) (he : e ∈ log)
    (haccepted : e.2.isAccepted = true) : ∃ key d, Granted cfg e.1 key d := by
  cases hout : e.2 with
  | accepted key d => exact ⟨key, d, grants_of_run hrun e he key d hout⟩
  | refused | failed | replayed => rw [hout] at haccepted; cases haccepted

theorem covers_of_exat {request : Request} (key' : String) (expiresAt : Int)
    (h : ∀ op : Op, op.request = request → ∀ key d, Granted cfg op key d →
      key = key' ∧ unixSeconds op.now < expiresAt ∧ deadline op.now (.exat expiresAt) = some d) :
    Covers cfg (carriesOnly request) log := by
  intro e _ e' _ hp hp' key d key₁ d₁ hg hg'
  obtain ⟨rfl, hbefore, -⟩ := h e.1 (of_decide_eq_true hp) key d hg
  obtain ⟨rfl, -, hd⟩ := h e'.1 (of_decide_eq_true hp') key₁ d₁ hg'
  exact ⟨rfl, fun _ => live_of_exat hd hbefore⟩

/-- **Client attestation proofs and request objects are accepted once**, and in their interval. -/
theorem attestation_and_request_objects_once (cfg : Config) (store₀ store : Store) (log : List (Op × Outcome))
    (hrun : Run (exec cfg) store₀ log store) (htimed : TimedBy storeNow log) : AcceptedOnce log where
  attestation := by
    intro clientId jti iat
    refine accepted_once hrun htimed (covers_of_exat (clientAttestationReplay cfg.formats clientId jti) (iat + 301)
      fun op hrequest key d hg => ?_)
    obtain ⟨hkey, -, hbefore, hd⟩ := granted_clientAttestation hrequest hg
    exact ⟨hkey, hbefore, hd⟩
  attestationInterval := by
    intro e he clientId jti iat hrequest haccepted
    obtain ⟨key, d, hg⟩ := granted_of_accepted hrun he haccepted
    obtain ⟨-, hafter, hbefore, -⟩ := granted_clientAttestation hrequest hg
    exact ⟨hafter, hbefore⟩
  jar := by
    intro clientId jti expiresAt
    refine accepted_once hrun htimed (covers_of_exat (jarReplay cfg.formats clientId jti) expiresAt
      fun op hrequest key d hg => ?_)
    exact granted_requestObject _ (by simp only [consumption, hrequest]) hg
  cibaRequestObject := by
    intro clientId jti expiresAt
    refine accepted_once hrun htimed (covers_of_exat (cibaRequestObjectReplay cfg.formats clientId jti) expiresAt
      fun op hrequest key d hg => ?_)
    exact granted_requestObject _ (by simp only [consumption, hrequest]) hg
  requestObjectInterval := by
    intro e he clientId jti expiresAt hrequest haccepted
    obtain ⟨key, d, hg⟩ := granted_of_accepted hrun he haccepted
    rcases hrequest with hrequest | hrequest
    · exact (granted_requestObject (jarReplay cfg.formats clientId jti)
        (by simp only [consumption, hrequest]) hg).2.1
    · exact (granted_requestObject (cibaRequestObjectReplay cfg.formats clientId jti)
        (by simp only [consumption, hrequest]) hg).2.1
  taken := served_apart hrun htimed

/-- Nodes with clocks of their own try a proof and a request object again and again. -/
def persistentOps : List Op :=
  [⟨.clientAttestation "app" "proof" 1000, 940000, 939999⟩,
    ⟨.clientAttestation "app" "proof" 1000, 1000000, 940000⟩,
    ⟨.jar "app" "object" 1200, 5000000, 1100000⟩, ⟨.jar "app" "object" 1200, 0, 1199999⟩,
    ⟨.jar "app" "object" 1200, 0, 1200001⟩,
    ⟨.clientAttestation "app" "proof" 1000, 1000000, 1300999⟩,
    ⟨.clientAttestation "app" "proof" 1000, 1000000, 1301001⟩]

theorem attestation_and_request_objects_once_persistent : AcceptedOnce (attempts persistentOps).1
      ∧ (attempts persistentOps).1.countP (acceptedOf (carriesOnly (.clientAttestation "app" "proof" 1000))) = 1
      ∧ (attempts persistentOps).1.countP (acceptedOf (carriesOnly (.jar "app" "object" 1200))) = 1 :=
  ⟨attestation_and_request_objects_once minuteConfig _ _ _ (run_execAll _ persistentOps)
    (by decide +kernel), by decide +kernel, by decide +kernel⟩

end Absolute

/-! ## HTTP message signatures -/

section Signatures

variable {signature : HttpSignature}

/-- The time check at a second of the clock. -/
def Acceptable (cfg : Config) (signature : HttpSignature) (now : Int) : Prop :=
  validateTime signature ⟨now, cfg.fapiMaxAgeSeconds, fapiHttpSignatureFutureSkewSeconds⟩ = true

/-- The last second in which a signature may be acceptable: its age ends, or it expires before. -/
def lastSecond (cfg : Config) (signature : HttpSignature) : Int :=
  match signature.expires with
  | some (.integer expires) => min (signature.created + cfg.fapiMaxAgeSeconds) expires
  | _ => signature.created + cfg.fapiMaxAgeSeconds

theorem acceptable_spec {now : Int} (hnow : 0 ≤ now) (hrange : now ≤ maxI64) (h : Acceptable cfg signature now) :
    signature.created ≤ now + 5 ∧ now ≤ lastSecond cfg signature := by
  unfold Acceptable validateTime at h
  split_ifs at h with hbad
  simp only [Bool.or_eq_true, decide_eq_true_eq] at hbad
  simp only [fapiHttpSignatureFutureSkewSeconds] at hbad
  have hsum := saturate_le (show 0 ≤ now + 5 by omega)
  have hdifference := le_saturate_of_le (show now - cfg.fapiMaxAgeSeconds ≤ maxI64 by omega)
  refine ⟨by omega, ?_⟩
  unfold lastSecond
  split
  · rename_i expires hexpires
    simp only [validExpires, hexpires, Bool.not_eq_true', Bool.or_eq_false_iff, decide_eq_false_iff_not] at h
    omega
  · omega

variable {d : Int} {key tenantId : String}

/-- A signature that is acceptable when its marker is set stays so to its last second. -/
theorem acceptable_lastSecond {now : Nat} (hd : deadline now (.ex (cfg.fapiMaxAgeSeconds + 5)) = some d)
    (h : Acceptable cfg signature (unixSeconds now)) :
    Acceptable cfg signature (lastSecond cfg signature) ∧ 0 ≤ lastSecond cfg signature
      ∧ lastSecond cfg signature ≤ maxI64 := by
  obtain ⟨hnow, httl⟩ := seconds_of_deadline_ex hd
  have hmillis : maxMillis / 1000 = 9223372036854775 := by decide
  have hstart := unixSeconds_nonneg now
  obtain ⟨hfuture, hlast⟩ := acceptable_spec hstart (unixSeconds_le_maxI64 hd) h
  unfold Acceptable validateTime at h ⊢
  split_ifs at h with hbad
  simp only [Bool.or_eq_true, decide_eq_true_eq, not_or] at hbad
  have hage : lastSecond cfg signature ≤ signature.created + cfg.fapiMaxAgeSeconds := by
    unfold lastSecond
    split <;> omega
  refine ⟨?_, by omega, by simp only [maxI64]; omega⟩
  rw [if_neg]
  · unfold validExpires lastSecond at *
    split <;> rename_i hexpires <;> simp only [hexpires, Bool.not_eq_true', Bool.or_eq_false_iff,
      decide_eq_false_iff_not, Bool.false_eq_true] at h ⊢
    omega
  · have hold : saturate (lastSecond cfg signature - cfg.fapiMaxAgeSeconds)
        ≤ lastSecond cfg signature - cfg.fapiMaxAgeSeconds := by
      simp only [saturate]
      omega
    have hahead := le_saturate_of_le (show lastSecond cfg signature + 5 ≤ maxI64 by simp only [maxI64]; omega)
    simp only [Bool.or_eq_true, decide_eq_true_eq, not_or]
    simp only [fapiHttpSignatureFutureSkewSeconds]
    omega

theorem granted_fapiHttpSignature {op : Op} (hrequest : op.request = .fapiHttpSignature tenantId signature) :
    Granted cfg op key d ↔ key = fapiHttpSignatureReplay tenantId signature.fingerprint
      ∧ Acceptable cfg signature (unixSeconds op.checkedAt)
      ∧ deadline op.now (.ex (cfg.fapiMaxAgeSeconds + 5)) = some d := by
  simp only [Granted, consumption, hrequest, consumeFapiHttpSignature]
  constructor
  · rintro ⟨expiration, hset, hd⟩
    split_ifs at hset with htime httl
    cases hset
    exact ⟨rfl, htime, hd⟩
  · rintro ⟨rfl, htime, hd⟩
    obtain ⟨hpos, -⟩ := deadline_ex hd
    obtain ⟨-, hmax⟩ := seconds_of_deadline_ex hd
    have hmillis : maxMillis / 1000 = 9223372036854775 := by decide
    refine ⟨_, (if_pos htime).trans (if_neg ?_), hd⟩
    simp only [Bool.or_eq_true, decide_eq_true_eq]
    simp only [fapiHttpSignatureFutureSkewSeconds, maxI64]
    omega

/-- Each presented request that passes the time check would set a marker that is there to the last
millisecond in which the signature is acceptable. -/
def Timely (cfg : Config) (tenantId : String) (signature : HttpSignature) (log : List (Op × Outcome)) : Prop :=
  ∀ e ∈ log, e.1.request = .fapiHttpSignature tenantId signature →
    Acceptable cfg signature (unixSeconds e.1.checkedAt) →
    ∀ d, deadline e.1.now (.ex (cfg.fapiMaxAgeSeconds + 5)) = some d → lastSecond cfg signature * 1000 + 999 ≤ d

/-- A signature is accepted once, and its marker is there as long as it is acceptable. -/
structure SignatureOnce (cfg : Config) (tenantId : String) (signature : HttpSignature)
    (log : List (Op × Outcome)) : Prop where
  once : log.countP (acceptedOf (carriesOnly (.fapiHttpSignature tenantId signature))) ≤ 1
  live : ∀ e ∈ log, e.1.request = .fapiHttpSignature tenantId signature → ∀ key d, e.2 = .accepted key d →
    ∀ t : Nat, unixSeconds t ≤ maxI64 → Acceptable cfg signature (unixSeconds t) → (t : Int) ≤ d

theorem le_of_acceptable {t : Nat} (hrange : unixSeconds t ≤ maxI64)
    (h : Acceptable cfg signature (unixSeconds t)) : (t : Int) ≤ lastSecond cfg signature * 1000 + 999 := by
  have hlast := (acceptable_spec (unixSeconds_nonneg t) hrange h).2
  have hend := lt_unixSeconds t
  omega

/-- **A signature is accepted once if it is timely**, and only then if nothing else sets its
marker. -/
theorem signature_once (cfg : Config) (store₀ store : Store) (log : List (Op × Outcome))
    (hrun : Run (exec cfg) store₀ log store) (htimed : TimedBy storeNow log)
    (hcoincide : ∀ e ∈ log, e.1.checkedAt = e.1.now)
    (tenantId : String) (signature : HttpSignature) :
    (Timely cfg tenantId signature log → SignatureOnce cfg tenantId signature log)
      ∧ (Alone cfg (carriesOnly (.fapiHttpSignature tenantId signature)) store₀ log →
        (SignatureOnce cfg tenantId signature log ↔ Timely cfg tenantId signature log)) := by
  have hforward (htimely : Timely cfg tenantId signature log) : SignatureOnce cfg tenantId signature log := by
    refine ⟨accepted_once hrun htimed fun e he e' he' hp hp' key d key' d' hg hg' => ?_,
      fun e he hrequest key d hout t hrange ht => ?_⟩
    · obtain ⟨rfl, htime, hd⟩ := (granted_fapiHttpSignature (of_decide_eq_true hp)).mp hg
      obtain ⟨rfl, htime', hd'⟩ := (granted_fapiHttpSignature (of_decide_eq_true hp')).mp hg'
      have hlive := htimely e' he' (of_decide_eq_true hp') htime' d' hd'
      rw [hcoincide e he] at htime
      exact ⟨rfl, fun _ => Int.le_trans (le_of_acceptable (unixSeconds_le_maxI64 hd) htime) hlive⟩
    · obtain ⟨-, htime, hd⟩ := (granted_fapiHttpSignature hrequest).mp (grants_of_run hrun e he key d hout)
      exact Int.le_trans (le_of_acceptable hrange ht) (htimely e he hrequest htime d hd)
  refine ⟨hforward, fun halone => ⟨fun honce e he hrequest htime d hd => ?_, hforward⟩⟩
  -- The request has met the marker of one that was accepted, not after it.
  obtain ⟨e', he', d', haccepted, hout, hg', hbefore⟩ := halone.answered hrun htimed he (decide_eq_true hrequest)
    ((granted_fapiHttpSignature hrequest).mpr ⟨rfl, htime, hd⟩)
  have hrequest' := of_decide_eq_true (Bool.and_eq_true _ _ ▸ haccepted).1
  obtain ⟨-, -, hd'⟩ := (granted_fapiHttpSignature hrequest').mp hg'
  have hstart : storeNow e' ≤ storeNow e := hbefore.elim (fun h => by rw [h]) And.left
  rw [hcoincide e he] at htime
  obtain ⟨hlast, hnonneg, hrange⟩ := acceptable_lastSecond hd htime
  have hsecond : unixSeconds (lastSecond cfg signature * 1000 + 999).toNat = lastSecond cfg signature := by
    unfold unixSeconds
    omega
  have hlive := honce.live e' he' hrequest' _ d' hout (lastSecond cfg signature * 1000 + 999).toNat
    (by rw [hsecond]; exact hrange) (by rw [hsecond]; exact hlast)
  obtain ⟨-, rfl, -⟩ := deadline_ex hd
  obtain ⟨-, rfl, -⟩ := deadline_ex hd'
  simp only [storeNow] at hstart
  omega

/-- The signature is presented in the last millisecond of the fifth second ahead of its creation,
and again in the last one of its age. -/
def earlyOps : List Op :=
  [95999, 160999].map fun now => ⟨.fapiHttpSignature "tenant" ⟨100, none, "fingerprint"⟩, now, now⟩

theorem signature_once_early :
    SignatureOnce minuteConfig "tenant" ⟨100, none, "fingerprint"⟩ (attempts earlyOps).1
      ∧ (attempts earlyOps).1.map (·.2)
        = [.replayed, .accepted "fapi_http_signature_replay:tenant:fingerprint" 160999] := by
  have hall : ∀ e ∈ (attempts earlyOps).1, 95999 ≤ e.1.now
      ∧ carriesOnly (.fapiHttpSignature "tenant" ⟨100, none, "fingerprint"⟩) e.1.request = true := by
    decide +kernel
  refine ⟨((signature_once minuteConfig _ _ _ (run_execAll _ earlyOps) (by decide +kernel) (by decide +kernel)
    "tenant" ⟨100, none, "fingerprint"⟩).2 ⟨fun _ _ _ _ _ _ => rfl,
    fun _ _ _ _ _ _ e he _ _ => (hall e he).2⟩).mpr fun e he _ _ d hd => ?_, by decide +kernel⟩
  have hearly := (hall e he).1
  obtain ⟨-, rfl, -⟩ := deadline_ex hd
  simp only [lastSecond, minuteConfig]
  omega

/-- The signature is presented five seconds ahead of its creation, and again a minute after it. -/
def aheadOps : List Op :=
  [95000, 160001].map fun now => ⟨.fapiHttpSignature "tenant" ⟨100, none, "fingerprint"⟩, now, now⟩

/-- The lifetime of the marker is the whole window, but the window includes its last second. -/
theorem future_signature_accepted_twice :
    ∃ store, Run (exec minuteConfig) (fun _ => none) (attempts aheadOps).1 store
      ∧ TimedBy storeNow (attempts aheadOps).1
      ∧ (∀ e ∈ (attempts aheadOps).1, e.1.checkedAt = e.1.now) ∧ (attempts aheadOps).1.countP
      (acceptedOf (carriesOnly (.fapiHttpSignature "tenant" ⟨100, none, "fingerprint"⟩))) = 2 :=
  ⟨_, run_execAll _ aheadOps, by decide +kernel, by decide +kernel, by decide +kernel⟩

end Signatures

/-! ## DPoP proofs at the authorization server -/

section Dpop

/-- Requests to the authorization server with this proof. -/
def presentsProof (proof : DpopProof) : Request → Bool
  | .dpop request _ => request.proof = proof
  | _ => false

variable {proof : DpopProof}

theorem request_of_presentsProof {request : Request} (h : presentsProof proof request = true) :
    ∃ dpop nonceAccepted, request = .dpop dpop nonceAccepted ∧ dpop.proof = proof := by
  unfold presentsProof at h
  split at h
  · exact ⟨_, _, rfl, of_decide_eq_true h⟩
  · cases h

theorem iatWithinWindow_spec {iat now : Int} (hnow : 0 ≤ now) (h : iatWithinWindow iat now = true) :
    iat - 30 ≤ now ∧ now ≤ iat + 300 := by
  unfold iatWithinWindow at h
  split_ifs at h with hfuture
  simp only [Bool.or_eq_true, Bool.and_eq_true, decide_eq_true_eq] at h
  simp only [dpopMaxProofAgeSeconds, dpopClockSkewSeconds] at h hfuture
  have hsum := saturate_le (show 0 ≤ now + 30 by omega)
  omega

theorem granted_dpop {op : Op} {request : DpopProofRequest} {nonceAccepted : Bool} {key : String}
    {d : Int} (hrequest : op.request = .dpop request nonceAccepted) (h : Granted cfg op key d) :
    (replayScope cfg.formats request).map (dpopReplay cfg.formats · request.proof.jti) = some key
      ∧ request.proof.iat - 30 ≤ unixSeconds op.checkedAt ∧ unixSeconds op.checkedAt ≤ request.proof.iat + 300
      ∧ deadline op.now (.ex 331) = some d := by
  obtain ⟨expiration, hset, hd⟩ := h
  simp only [consumption, hrequest, consumeDpop] at hset
  split_ifs at hset with hnonce hchecks
  split at hset
  · cases hset
  rename_i scope hscope
  simp only [validateClaims, Bool.or_eq_true, Bool.not_eq_true', not_or, Bool.not_eq_false, Bool.and_eq_true]
    at hchecks
  obtain ⟨-, ⟨⟨⟨-, hiat⟩, -⟩, -⟩⟩ := hchecks
  obtain ⟨hearly, hlate⟩ := iatWithinWindow_spec (unixSeconds_nonneg op.checkedAt) hiat
  cases hset
  exact ⟨by rw [hscope]; rfl, hearly, hlate, hd⟩

/-- A presented request with the proof: its checks pass, and the store takes the lifetime of its
marker. -/
structure Passes (cfg : Config) (proof : DpopProof) (op : Op) (request : DpopProofRequest) : Prop where
  presented : ∃ nonceAccepted, op.request = .dpop request nonceAccepted
  proof : request.proof = proof
  checks : ∃ key d, Granted cfg op key d

/-- The presented requests that pass have one scope: the key, or with an access token the method and
the target. -/
def OneScope (cfg : Config) (proof : DpopProof) (log : List (Op × Outcome)) : Prop :=
  ∀ e ∈ log, ∀ e' ∈ log, ∀ request request', Passes cfg proof e.1 request → Passes cfg proof e'.1 request' →
    replayScope cfg.formats request = replayScope cfg.formats request'

/-- Their markers are tried within the lifetime of one marker, 331 seconds. -/
def OneLifetime (cfg : Config) (proof : DpopProof) (log : List (Op × Outcome)) : Prop :=
  ∀ e ∈ log, ∀ e' ∈ log, ∀ request request', Passes cfg proof e.1 request →
    Passes cfg proof e'.1 request' → e.1.now ≤ e'.1.now + 331000

theorem dpopReplay_inj {f : Formats} {scope scope' jti : String}
    (h : dpopReplay f scope jti = dpopReplay f scope' jti) : scope = scope' := by
  unfold dpopReplay at h
  simpa only [String.append_left_inj, String.append_right_inj] using h

/-- **The marker of a proof covers its other uses** exactly if they have one scope and are in one
lifetime. -/
theorem covers_dpop : Covers cfg (presentsProof proof) log ↔ OneScope cfg proof log
      ∧ OneLifetime cfg proof log := by
  constructor
  · intro hcovers
    have hpair : ∀ e ∈ log, ∀ e' ∈ log, ∀ request request', Passes cfg proof e.1 request →
        Passes cfg proof e'.1 request' → replayScope cfg.formats request = replayScope cfg.formats request'
          ∧ (e'.1.now ≤ e.1.now → e.1.now ≤ e'.1.now + 331000) := by
      rintro e he e' he' request request' ⟨⟨_, hrequest⟩, rfl, key, d, hg⟩ ⟨⟨_, hrequest'⟩, hproof, key', d', hg'⟩
      obtain ⟨rfl, hlive⟩ := hcovers e he e' he' (by simp [presentsProof, hrequest])
        (by simp [presentsProof, hrequest', hproof]) key d key' d' hg hg'
      obtain ⟨hkey, -⟩ := granted_dpop hrequest hg
      obtain ⟨hkey', -, -, hd'⟩ := granted_dpop hrequest' hg'
      obtain ⟨-, rfl, -⟩ := deadline_ex hd'
      obtain ⟨scope, hscope, hkey⟩ := Option.map_eq_some_iff.mp hkey
      obtain ⟨scope', hscope', hkey'⟩ := Option.map_eq_some_iff.mp hkey'
      rw [hproof] at hkey'
      simp only [storeNow] at hlive
      exact ⟨by rw [hscope, hscope', dpopReplay_inj (hkey.trans hkey'.symm)], fun hle => by omega⟩
    refine ⟨fun e he e' he' request request' h h' => (hpair e he e' he' request request' h h').1,
      fun e he e' he' request request' h h' => ?_⟩
    rcases Nat.le_total e'.1.now e.1.now with hle | hle
    · exact (hpair e he e' he' request request' h h').2 hle
    · omega
  · rintro ⟨hscope, hlifetime⟩ e he e' he' hp hp' key d key' d' hg hg'
    obtain ⟨request, _, hrequest, rfl⟩ := request_of_presentsProof hp
    obtain ⟨request', _, hrequest', hproof⟩ := request_of_presentsProof hp'
    have hpasses : Passes cfg request.proof e.1 request := ⟨⟨_, hrequest⟩, rfl, key, d, hg⟩
    have hpasses' : Passes cfg request.proof e'.1 request' := ⟨⟨_, hrequest'⟩, hproof, key', d', hg'⟩
    obtain ⟨hkey, -⟩ := granted_dpop hrequest hg
    obtain ⟨hkey', -, -, hd'⟩ := granted_dpop hrequest' hg'
    obtain ⟨-, rfl, -⟩ := deadline_ex hd'
    rw [hscope e he e' he' request request' hpasses hpasses', ← hproof] at hkey
    have hnow := hlifetime e he e' he' request request' hpasses hpasses'
    exact ⟨Option.some.inj (hkey.symm.trans hkey'), fun _ => by simp only [storeNow]; omega⟩

theorem dpop_accepted_once_iff (hrun : Run (exec cfg) store₀ log store)
    (htimed : TimedBy storeNow log) (halone : Alone cfg (presentsProof proof) store₀ log) :
    log.countP (acceptedOf (presentsProof proof)) ≤ 1 ↔ OneScope cfg proof log ∧ OneLifetime cfg proof log := by
  rw [← covers_dpop]
  refine ⟨covers_of_accepted_once hrun htimed halone (show (0 : Int) ≤ 331 * 1000 by decide)
    fun e _ hp key d hg => ?_, accepted_once hrun htimed⟩
  obtain ⟨request, nonceAccepted, hrequest, -⟩ := request_of_presentsProof hp
  obtain ⟨-, -, -, hd⟩ := granted_dpop hrequest hg
  exact (deadline_ex hd).2.1

/-- **A proof is accepted once if its uses are in one scope and their markers are tried in one
lifetime**, and only then if nothing else sets its markers. -/
theorem dpop_once_in_window (cfg : Config) (store₀ store : Store) (log : List (Op × Outcome))
    (hrun : Run (exec cfg) store₀ log store) (htimed : TimedBy storeNow log) (proof : DpopProof) :
    (OneScope cfg proof log ∧ OneLifetime cfg proof log → log.countP (acceptedOf (presentsProof proof)) ≤ 1)
      ∧ (Alone cfg (presentsProof proof) store₀ log →
        (log.countP (acceptedOf (presentsProof proof)) ≤ 1 ↔ OneScope cfg proof log
          ∧ OneLifetime cfg proof log)) :=
  ⟨fun h => accepted_once hrun htimed (covers_dpop.mpr h), dpop_accepted_once_iff hrun htimed⟩

/-- A proof for the token endpoint that names an access token. -/
def tokenProof : DpopProof := ⟨"jkt", "jti", 1000, "POST", "https://as.example/token", some "token", none⟩

/-- The proof in a token request, without the access token or with it. -/
def tokenRequest (accessToken : Option String) : Request :=
  .dpop ⟨tokenProof, "POST", "https://as.example/token", accessToken, none⟩ true

/-- The second request is checked in the last second of the proof, and its marker tried later than
that. -/
def lateOps : List Op := [⟨tokenRequest none, 970000, 975500⟩, ⟨tokenRequest none, 1300000, 1306500⟩]

theorem dpop_once_in_window_late : (attempts lateOps).1.countP (acceptedOf (presentsProof tokenProof)) ≤ 1
      ∧ (attempts lateOps).1.map (·.2) = [.replayed, .accepted "oauth:dpop:jti:jkt:jti" 1306500] := by
  have hall : ∀ e ∈ (attempts lateOps).1, e.1.request = tokenRequest none := by decide +kernel
  refine ⟨((dpop_once_in_window minuteConfig _ _ _ (run_execAll _ lateOps) (by decide +kernel) tokenProof).2
    ⟨fun _ _ _ _ _ _ => rfl, fun _ _ _ _ _ _ e he _ _ => by rw [hall e he]; decide +kernel⟩).mpr
    ⟨fun e he e' he' request request' h h' => ?_, fun e he e' he' request request' _ _ => ?_⟩, by decide +kernel⟩
  · obtain ⟨_, hrequest⟩ := h.presented
    obtain ⟨_, hrequest'⟩ := h'.presented
    cases (hall e he).symm.trans hrequest
    cases (hall e' he').symm.trans hrequest'
    rfl
  · exact (by decide +kernel : ∀ e ∈ (attempts lateOps).1, ∀ e' ∈ (attempts lateOps).1,
      e.1.now ≤ e'.1.now + 331000) e he e' he'

/-- The second request is checked in the last second of the proof, and its marker tried a second
later. -/
def delayedOps : List Op := [⟨tokenRequest none, 970000, 970000⟩, ⟨tokenRequest none, 1300000, 1301001⟩]

/-- The first marker is gone when the second request, whose check has passed, sets its own. -/
theorem delayed_proof_accepted_twice :
    ∃ store, Run (exec minuteConfig) (fun _ => none) (attempts delayedOps).1 store
      ∧ TimedBy storeNow (attempts delayedOps).1 ∧ (∀ e ∈ (attempts delayedOps).1, e.1.checkedAt ≤ e.1.now)
      ∧ (attempts delayedOps).1.countP (acceptedOf (presentsProof tokenProof)) = 2 :=
  ⟨_, run_execAll _ delayedOps, by decide +kernel, by decide +kernel, by decide +kernel⟩

end Dpop

/-! ## DPoP proofs at a resource server -/

section ResourceDpop

def presentsResourceProof (proof : DpopProof) : Request → Bool
  | .resourceDpop request _ => request.proof = proof
  | _ => false

variable {proof : DpopProof}

theorem request_of_presentsResourceProof {request : Request} (h : presentsResourceProof proof request = true) :
    ∃ dpop nonceAccepted, request = .resourceDpop dpop nonceAccepted ∧ dpop.proof = proof := by
  unfold presentsResourceProof at h
  split at h
  · exact ⟨_, _, rfl, of_decide_eq_true h⟩
  · cases h

theorem granted_resourceDpop {op : Op} {request : ResourceDpopRequest} {nonceAccepted : Bool} {key : String}
    {d : Int} (hrequest : op.request = .resourceDpop request nonceAccepted)
    (h : Granted cfg op key d) : key = dpopReplay cfg.formats request.proof.jkt request.proof.jti
      ∧ saturate (unixSeconds op.checkedAt
        - saturate (max cfg.dpop.maxAgeSeconds 1 + max cfg.dpop.clockSkewSeconds 0)) ≤ request.proof.iat
      ∧ deadline op.now (.ex (max (saturate (resourceExpiresAt cfg.dpop request.proof - unixSeconds op.now)) 1))
      = some d := by
  obtain ⟨expiration, hset, hd⟩ := h
  simp only [consumption, hrequest, consumeResourceDpop] at hset
  split_ifs at hset with hnonce hchecks
  simp only [validateResourceClaims, Bool.or_eq_true, Bool.not_eq_true', not_or, Bool.not_eq_false,
    Bool.and_eq_true, decide_eq_false_iff_not] at hchecks
  obtain ⟨⟨⟨⟨-, hiat⟩, -⟩, -⟩, -⟩ := hchecks
  cases hset
  exact ⟨rfl, Int.not_lt.mp hiat, hd⟩

/-- What is left of a proof covers its last second, as long as it is a lifetime that the store
takes. -/
theorem resourceExpiresAt_covers {config : DpopProofVerifierConfig} {now now' : Int}
    (hrange : now ≤ maxMillis / 1000) (hrange' : now' ≤ maxMillis / 1000)
    (hold : saturate (now - saturate (max config.maxAgeSeconds 1 + max config.clockSkewSeconds 0)) ≤ proof.iat)
    (httl : saturate (resourceExpiresAt config proof - now') ≤ maxMillis / 1000) :
    now + 1 ≤ now' + saturate (resourceExpiresAt config proof - now') := by
  have hmillis : maxMillis / 1000 = 9223372036854775 := by decide
  -- Neither the lifetime nor the expiry is cut off.
  have hleft := le_saturate httl (by omega)
  have hexpires : resourceExpiresAt config proof ≤ 9223372036854775 * 2 := by omega
  have hage : 1 ≤ max config.maxAgeSeconds 1 := Int.le_max_right _ _
  have hskew : 0 ≤ max config.clockSkewSeconds 0 := Int.le_max_right _ _
  unfold resourceExpiresAt at hexpires hleft ⊢
  generalize max config.maxAgeSeconds 1 = maxAge at *
  generalize max config.clockSkewSeconds 0 = skew at *
  have houter := le_saturate hexpires (by omega)
  have hmiddle := le_saturate (show saturate (saturate (proof.iat + maxAge) + skew) ≤ 9223372036854775
    * 2 by omega) (by omega)
  have hinner := le_saturate (show saturate (proof.iat + maxAge) ≤ 9223372036854775 * 2 by omega) (by omega)
  -- The proof is not older than it may be.
  have hwindow := saturate_le (show 0 ≤ maxAge + skew by omega)
  have hnonneg := saturate_nonneg (show 0 ≤ maxAge + skew by omega)
  have hyoung := le_saturate_of_le (show now - saturate (maxAge + skew) ≤ maxI64 by simp only [maxI64]; omega)
  omega

theorem covers_resourceDpop (hcoincide : ∀ e ∈ log, e.1.checkedAt = e.1.now) (proof : DpopProof) :
    Covers cfg (presentsResourceProof proof) log := by
  intro e he e' he' hp hp' key d key' d' hg hg'
  obtain ⟨request, nonceAccepted, hrequest, rfl⟩ := request_of_presentsResourceProof hp
  obtain ⟨request', nonceAccepted', hrequest', hproof⟩ := request_of_presentsResourceProof hp'
  obtain ⟨rfl, hold, hd⟩ := granted_resourceDpop hrequest hg
  obtain ⟨rfl, -, hd'⟩ := granted_resourceDpop hrequest' hg'
  rw [hcoincide e he] at hold
  rw [hproof] at hd' ⊢
  refine ⟨rfl, fun _ => live_of_ttl hd' ?_⟩
  obtain ⟨hrange, -⟩ := seconds_of_deadline_ex hd
  obtain ⟨hrange', httl⟩ := seconds_of_deadline_ex hd'
  have hcovers := resourceExpiresAt_covers hrange hrange' hold
    (Int.le_trans (Int.le_max_left _ 1) httl)
  omega

end ResourceDpop

/-! ## Assertions -/

section Assertions

def presentsClientAssertion (claims : AssertionClaims) : Request → Bool
  | .privateKeyJwt _ claims' _ => claims' = claims
  | _ => false

def presentsGrantAssertion (claims : AssertionClaims) : Request → Bool
  | .jwtBearer _ claims' _ => claims' = claims
  | _ => false

def UntilExpiry (op : Op) (exp : Int) (d : Int) : Prop :=
  unixSeconds op.checkedAt < exp ∧ ∃ ttl, deadline op.now (.ex ttl) = some d
    ∧ (op.checkedAt = op.now → unixSeconds op.now + ttl = exp)

variable {claims : AssertionClaims}

theorem validClientAssertionTimes_spec {now : Int} (hnow : 0 ≤ now)
    (h : validClientAssertionTimes claims now = true) : now < claims.exp ∧ claims.exp ≤ now + 300 := by
  unfold validClientAssertionTimes at h
  split_ifs at h with htimes
  simp only [Bool.or_eq_true, decide_eq_true_eq] at htimes
  simp only [clientAssertionMaxTtlSeconds] at htimes
  have hsum := saturate_le (show 0 ≤ now + 300 by omega)
  omega

variable {d : Int} {key : String} {op : Op}

theorem granted_clientAssertion (hpresents : presentsClientAssertion claims op.request = true)
    (h : Granted cfg op key d) :
    key = privateKeyJwtReplay cfg.formats claims.iss claims.jti ∧ UntilExpiry op claims.exp d := by
  obtain ⟨expiration, hset, hd⟩ := h
  unfold presentsClientAssertion at hpresents
  split at hpresents
  · rename_i clientId claims' authentic hrequest
    obtain rfl := of_decide_eq_true hpresents
    simp only [consumption, hrequest, consumePrivateKeyJwt] at hset
    split_ifs at hset with hchecks
    simp only [Bool.or_eq_true, Bool.not_eq_true', not_or, Bool.not_eq_false, decide_eq_true_eq, not_not]
      at hchecks
    obtain ⟨⟨⟨⟨-, hiss⟩, -⟩, htimes⟩, -⟩ := hchecks
    obtain ⟨hbefore, hmax⟩ := validClientAssertionTimes_spec (unixSeconds_nonneg op.checkedAt) htimes
    cases hset
    refine ⟨by rw [hiss], hbefore, _, hd, fun hcoincide => ?_⟩
    rw [hcoincide] at hbefore hmax
    simp only [replayTtlSeconds, clientAssertionMaxTtlSeconds, saturate]
    omega
  · cases hpresents

theorem granted_grantAssertion (hpresents : presentsGrantAssertion claims op.request = true)
    (h : Granted cfg op key d) :
    key = jwtBearerReplay cfg.formats claims.iss claims.jti ∧ UntilExpiry op claims.exp d := by
  obtain ⟨expiration, hset, hd⟩ := h
  unfold presentsGrantAssertion at hpresents
  split at hpresents
  · rename_i clientId claims' authentic hrequest
    obtain rfl := of_decide_eq_true hpresents
    simp only [consumption, hrequest, consumeJwtBearer] at hset
    split_ifs at hset with hchecks
    simp only [validateJwtBearerAssertionClaims, Bool.or_eq_true, Bool.not_eq_true', not_or, Bool.not_eq_false,
      Bool.and_eq_true, Bool.or_eq_false_iff, decide_eq_false_iff_not, not_not] at hchecks
    obtain ⟨-, ⟨⟨⟨⟨⟨⟨⟨⟨hiss, -⟩, -⟩, hbefore⟩, -⟩, -⟩, -⟩, -⟩, -⟩, -⟩ := hchecks
    cases hset
    refine ⟨by rw [hiss], Int.not_le.mp hbefore, _, hd, fun hcoincide => ?_⟩
    rw [hcoincide]
    omega
  · cases hpresents

theorem covers_of_untilExpiry {carries : Request → Bool} (key' : String) (exp : Int)
    (hcoincide : ∀ e ∈ log, e.1.checkedAt = e.1.now)
    (h : ∀ op : Op, carries op.request = true → ∀ key d, Granted cfg op key d → key = key'
    ∧ UntilExpiry op exp d) : Covers cfg carries log := by
  intro e he e' he' hp hp' key d key₁ d₁ hg hg'
  obtain ⟨rfl, hbefore, -⟩ := h e.1 hp key d hg
  obtain ⟨rfl, -, ttl, hd, hexp⟩ := h e'.1 hp' key₁ d₁ hg'
  have hexp := hexp (hcoincide e' he')
  rw [hcoincide e he] at hbefore
  exact ⟨rfl, fun _ => live_of_ttl hd (by omega)⟩

/-- Proofs and assertions whose marker has a relative lifetime. -/
structure UsedOnce (cfg : Config) (store₀ : Store) (log : List (Op × Outcome)) : Prop where
  authorizationServer : ∀ proof, OneScope cfg proof log → log.countP (acceptedOf (presentsProof proof)) ≤ 1
  /-- Nothing less than one scope will do, if nothing else sets the markers of the proof. -/
  oneScope : ∀ proof, Alone cfg (presentsProof proof) store₀ log →
    (log.countP (acceptedOf (presentsProof proof)) ≤ 1 ↔ OneScope cfg proof log)
  resourceServer : ∀ proof, log.countP (acceptedOf (presentsResourceProof proof)) ≤ 1
  clientAssertion : ∀ claims, log.countP (acceptedOf (presentsClientAssertion claims)) ≤ 1
  grantAssertion : ∀ claims, log.countP (acceptedOf (presentsGrantAssertion claims)) ≤ 1

/-- A proof that is consumed at its check is tried within the lifetime of a marker. -/
theorem oneLifetime_of_coincide (hcoincide : ∀ e ∈ log, e.1.checkedAt = e.1.now)
    (proof : DpopProof) : OneLifetime cfg proof log := by
  rintro e he e' he' request request' ⟨⟨_, hrequest⟩, rfl, key, d, hg⟩ ⟨⟨_, hrequest'⟩, hproof, key', d', hg'⟩
  obtain ⟨-, -, hlate, -⟩ := granted_dpop hrequest hg
  obtain ⟨-, hearly, -⟩ := granted_dpop hrequest' hg'
  rw [hcoincide e he] at hlate
  rw [hcoincide e' he', hproof] at hearly
  have hend := lt_unixSeconds e.1.now
  have hstart := unixSeconds_le e'.1.now
  omega

/-- **Proofs and assertions are used once** if they are consumed at the instant of their check. -/
theorem used_once (cfg : Config) (store₀ store : Store) (log : List (Op × Outcome))
    (hrun : Run (exec cfg) store₀ log store) (htimed : TimedBy storeNow log)
    (hcoincide : ∀ e ∈ log, e.1.checkedAt = e.1.now) : UsedOnce cfg store₀ log where
  authorizationServer := fun proof hscope =>
    accepted_once hrun htimed (covers_dpop.mpr ⟨hscope, oneLifetime_of_coincide hcoincide proof⟩)
  oneScope := by
    intro proof halone
    rw [dpop_accepted_once_iff hrun htimed halone]
    exact and_iff_left (oneLifetime_of_coincide hcoincide proof)
  resourceServer := fun proof => accepted_once hrun htimed (covers_resourceDpop hcoincide proof)
  clientAssertion := fun claims => accepted_once hrun htimed
    (covers_of_untilExpiry (privateKeyJwtReplay cfg.formats claims.iss claims.jti) claims.exp hcoincide
      fun op hp key d hg => granted_clientAssertion hp hg)
  grantAssertion := fun claims => accepted_once hrun htimed
    (covers_of_untilExpiry (jwtBearerReplay cfg.formats claims.iss claims.jti) claims.exp hcoincide
      fun op hp key d hg => granted_grantAssertion hp hg)

/-- Claims of a client assertion and of a grant assertion. -/
def appClaims : AssertionClaims := ⟨"app", "app", .str "https://as.example", 1300, none, some 1000, "assertion"⟩

def resourceProof : DpopProof := ⟨"jkt", "other", 1000, "GET", "https://api.example/", some "token", none⟩

/-- Each is used, and again in the last second in which it can be. -/
def repeatedOps : List Op :=
  [⟨.resourceDpop ⟨resourceProof, "GET", "https://api.example/", "token", "jkt"⟩ true, 998000, 998000⟩,
    ⟨.privateKeyJwt "app" appClaims true, 1000000, 1000000⟩,
    ⟨.jwtBearer "app" appClaims true, 1000000, 1000000⟩, ⟨tokenRequest none, 1000000, 1000000⟩,
    ⟨.resourceDpop ⟨resourceProof, "GET", "https://api.example/", "token", "jkt"⟩ true, 1012999, 1012999⟩,
    ⟨.privateKeyJwt "app" appClaims true, 1299999, 1299999⟩,
    ⟨.jwtBearer "app" appClaims true, 1299999, 1299999⟩, ⟨tokenRequest none, 1300999, 1300999⟩]

theorem used_once_repeated : UsedOnce minuteConfig (fun _ => none) (attempts repeatedOps).1
      ∧ (attempts repeatedOps).1.map (·.2.isAccepted) = [false, false, false, false, true, true, true, true] :=
  ⟨used_once minuteConfig _ _ _ (run_execAll _ repeatedOps) (by decide +kernel)
    (by decide +kernel), by decide +kernel⟩

/-- A token exchange with a proof for its subject token, and another token request with the same
proof. -/
def exchangedOps : List Op := [⟨tokenRequest (some "token"), 1000000, 1000000⟩,
    ⟨tokenRequest none, 1000000, 1000000⟩]

theorem exchanged_proof_accepted_twice :
    ∃ store, Run (exec minuteConfig) (fun _ => none) (attempts exchangedOps).1 store
      ∧ TimedBy storeNow (attempts exchangedOps).1 ∧ (∀ e ∈ (attempts exchangedOps).1, e.1.checkedAt = e.1.now)
      ∧ (attempts exchangedOps).1.countP (acceptedOf (presentsProof tokenProof)) = 2 :=
  ⟨_, run_execAll _ exchangedOps, by decide +kernel, by decide +kernel, by decide +kernel⟩

end Assertions

end NazoAuth.Replay
