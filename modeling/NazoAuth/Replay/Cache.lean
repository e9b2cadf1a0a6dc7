import Mathlib.Data.Finset.Card
import NazoAuth.Lib.Buckets
import NazoAuth.Replay.Once

/-!
# Replay — the cache of a resource server

A resource server without a replay store remembers the DPoP proofs that it has accepted in its own
memory, each until the proof is over. The cache has a limit; at the limit no proof is accepted.
-/

namespace NazoAuth.Replay

open Lib

abbrev DpopReplayCache := Buckets String

inductive ProofResult where
  /-- The proof does not pass a check. -/
  | invalid
  | replayDetected
  | replayCacheFull
  | accepted
  deriving DecidableEq

def replayKey (proof : DpopProof) : String := proof.jkt ++ ":" ++ proof.jti

def checkReplay (maxEntries : Nat) (cache : DpopReplayCache) (key : String) (now expiresAt : Int) :
    DpopReplayCache × ProofResult :=
  let cache := cache.dropExpired now
  if key ∈ cache.keys then (cache, .replayDetected)
  else if maxEntries ≤ cache.keys.card then (cache, .replayCacheFull)
  else (⟨insert key cache.keys, push expiresAt key cache.expirations⟩, .accepted)

/-- A request with a proof that is signed by its key, at a second of the calendar. -/
structure ProofCheck where
  request : ResourceDpopRequest
  now : Int
  now_range : now ≤ maxTimestamp

def ProofCheck.proof (check : ProofCheck) : DpopProof := check.request.proof

def verifyAt (f : Formats) (config : DpopProofVerifierConfig) (maxEntries : Nat)
    (cache : DpopReplayCache) (check : ProofCheck) : DpopReplayCache × ProofResult :=
  if validateResourceClaims f config check.request check.now then
    checkReplay maxEntries cache (replayKey check.proof) check.now (resourceExpiresAt config check.proof)
  else (cache, .invalid)

variable {f : Formats} {config : DpopProofVerifierConfig} {maxEntries : Nat}
  {cache cache' : DpopReplayCache} {check : ProofCheck} {result : ProofResult}
  {log : List (ProofCheck × ProofResult)}

/-- A proof that passes the checks is not over. -/
theorem lt_resourceExpiresAt (h : validateResourceClaims f config check.request check.now = true) :
    check.now < resourceExpiresAt config check.proof := by
  simp only [validateResourceClaims, Bool.and_eq_true, Bool.not_eq_true', decide_eq_false_iff_not] at h
  have hold : _ ≤ check.proof.iat := Int.not_lt.mp h.1.1.2
  have hrange := check.now_range
  have hage : 1 ≤ max config.maxAgeSeconds 1 := Int.le_max_right _ _
  have hskew : 0 ≤ max config.clockSkewSeconds 0 := Int.le_max_right _ _
  simp only [resourceExpiresAt, saturate, maxTimestamp] at hold hrange ⊢
  omega

def proofCheckedAt (e : ProofCheck × ProofResult) : Int := e.1.now

/-- **What the cache is**, after the checks of `log`. -/
structure CacheExact (config : DpopProofVerifierConfig) (maxEntries : Nat)
    (log : List (ProofCheck × ProofResult)) (cache : DpopReplayCache) : Prop where
  /-- The keys are the union of the buckets. -/
  exact : cache.Exact
  bounded : cache.keys.card ≤ maxEntries
  /-- An accepted proof is in its bucket until it is over. -/
  kept : ∀ e ∈ log, e.2 = .accepted → (∀ e' ∈ log, proofCheckedAt e' < resourceExpiresAt config e.1.proof) →
    (resourceExpiresAt config e.1.proof, replayKey e.1.proof) ∈ entries cache.expirations
  /-- What has the key of an accepted proof is not accepted before that is over. -/
  apart : log.Pairwise fun newer older => newer.2 = .accepted → older.2 = .accepted →
    replayKey newer.1.proof = replayKey older.1.proof →
    resourceExpiresAt config older.1.proof ≤ proofCheckedAt newer
  live : ∀ e ∈ log, e.2 = .accepted → proofCheckedAt e < resourceExpiresAt config e.1.proof

/-- A check that accepts nothing, and leaves what is not over. -/
theorem CacheExact.refused (h : CacheExact config maxEntries log cache) (hresult : result ≠ .accepted)
    (hexact : cache'.Exact) (hbounded : cache'.keys.card ≤ maxEntries)
    (hkept : ∀ key expiresAt, (expiresAt, key) ∈ entries cache.expirations → check.now < expiresAt →
      (expiresAt, key) ∈ entries cache'.expirations) :
        CacheExact config maxEntries ((check, result) :: log) cache' where
  exact := hexact
  bounded := hbounded
  kept := List.forall_mem_cons.mpr ⟨fun haccepted => absurd haccepted hresult, fun e he haccepted hopen => by
    obtain ⟨hnow, hopen⟩ := List.forall_mem_cons.mp hopen
    exact hkept _ _ (h.kept e he haccepted hopen) hnow⟩
  apart := List.pairwise_cons.mpr ⟨fun _ _ haccepted => absurd haccepted hresult, h.apart⟩
  live := List.forall_mem_cons.mpr ⟨fun haccepted => absurd haccepted hresult, h.live⟩

theorem cacheExact_step (hstep : verifyAt f config maxEntries cache check = (cache', result))
    (htimed : TimedBy proofCheckedAt ((check, result) :: log)) (h : CacheExact config maxEntries log cache) :
    CacheExact config maxEntries ((check, result) :: log) cache' := by
  have hexact : (cache.dropExpired check.now).Exact := h.exact.dropExpired
  have hbounded : (cache.dropExpired check.now).keys.card ≤ maxEntries := by
    refine Nat.le_trans (Finset.card_le_card ?_) h.bounded
    rw [Buckets.dropExpired, foldl_erase]
    exact Finset.sdiff_subset
  have hdropped : ∀ key expiresAt, (expiresAt, key) ∈ entries cache.expirations → check.now < expiresAt →
      (expiresAt, key) ∈ entries (cache.dropExpired check.now).expirations := fun _ _ => mem_entries_dropExpired
  simp only [verifyAt, checkReplay] at hstep
  split_ifs at hstep with hvalid hseen hfull
  · cases hstep
    exact h.refused (by simp) hexact hbounded hdropped
  · cases hstep
    exact h.refused (by simp) hexact hbounded hdropped
  · cases hstep
    have hkept : ∀ e ∈ log, e.2 = .accepted → check.now < resourceExpiresAt config e.1.proof →
        (resourceExpiresAt config e.1.proof, replayKey e.1.proof)
        ∈ entries (cache.dropExpired check.now).expirations :=
      fun e he haccepted hopen => hdropped _ _ (h.kept e he haccepted fun e' he' =>
        Int.lt_of_le_of_lt ((List.pairwise_cons.mp htimed).1 e' he') hopen) hopen
    have hpush := entries_push (resourceExpiresAt config check.proof) (replayKey check.proof)
      (cache.dropExpired check.now).expirations
    refine ⟨hexact.insert hseen, ?_, List.forall_mem_cons.mpr ⟨fun _ _ => hpush.mem_iff.mpr (.head _), ?_⟩,
      List.pairwise_cons.mpr ⟨?_, h.apart⟩,
      List.forall_mem_cons.mpr ⟨fun _ => lt_resourceExpiresAt hvalid, h.live⟩⟩
    · rw [Finset.card_insert_of_notMem hseen]
      exact Nat.not_le.mp hfull
    · intro e he haccepted hopen
      exact hpush.mem_iff.mpr (.tail _ (hkept e he haccepted (hopen _ (.head _))))
    -- Its key is not in the cache, so whatever had it is over.
    intro e he _ haccepted hkey
    by_contra hopen
    exact hseen (hkey ▸ hexact.mem_keys (hkept e he haccepted (Int.not_le.mp hopen)))
  · cases hstep
    exact h.refused (by simp) h.exact h.bounded fun _ _ hmem _ => hmem

/-- The cache of a new verifier. -/
def DpopReplayCache.default : DpopReplayCache := ⟨∅, []⟩

def acceptsProof (proof : DpopProof) (e : ProofCheck × ProofResult) : Bool := e.1.proof = proof && e.2 = .accepted

/-- **The cache is exact.** Each proof is accepted once, its key is there while it lasts, and at the
limit nothing is accepted. -/
theorem replay_cache_exact (f : Formats) (config : DpopProofVerifierConfig) (maxEntries : Nat)
    (log : List (ProofCheck × ProofResult)) (cache : DpopReplayCache)
    (hrun : Run (verifyAt f config maxEntries) .default log cache) (htimed : TimedBy proofCheckedAt log) :
    CacheExact config maxEntries log cache ∧ (∀ proof, log.countP (acceptsProof proof) ≤ 1)
      ∧ (∀ e ∈ log, e.2 = .accepted → (∀ e' ∈ log, proofCheckedAt e' < resourceExpiresAt config e.1.proof) →
        replayKey e.1.proof ∈ cache.keys)
      ∧ ∀ check, maxEntries ≤ (cache.dropExpired check.now).keys.card →
      (verifyAt f config maxEntries cache check).2 ≠ .accepted := by
  have h : CacheExact config maxEntries log cache := by
    refine hrun.invariant (I := CacheExact config maxEntries) (G := TimedBy proofCheckedAt)
      (fun _ _ h => (List.pairwise_cons.mp h).2) ?_
      (fun _ _ _ _ _ _ htimed h hstep => cacheExact_step hstep htimed h) htimed
    exact ⟨⟨.nil, rfl⟩, Nat.zero_le _, by simp, .nil, by simp⟩
  refine ⟨h, fun proof => countP_le_one fun newer e older hsplit hp e' he' => ?_,
    fun e he haccepted hopen => h.exact.mem_keys (h.kept e he haccepted hopen), fun check hfull => ?_⟩
  · by_contra hp'
    have hapart := h.apart
    rw [hsplit] at hapart
    simp only [acceptsProof, Bool.and_eq_true, decide_eq_true_eq, Bool.not_eq_false] at hp hp'
    have hover := (List.pairwise_cons.mp (List.pairwise_append.mp hapart).2.1).1 e' he' hp.2 hp'.2
      (by rw [hp.1, hp'.1])
    have hlive := h.live e (by simp [hsplit]) hp.2
    rw [hp'.1, ← hp.1] at hover
    omega
  · simp only [verifyAt, checkReplay, if_pos hfull]
    split_ifs <;> simp

def cachedCheck (jti : String) : ResourceDpopRequest :=
  ⟨{ resourceProof with jti := jti }, "GET", "https://api.example/", "token", "jkt"⟩

/-- A proof is used, and again in its last second; another one finds the cache full until the first
is over. -/
def cachedChecks : List ProofCheck :=
  [⟨cachedCheck "first", 998, by decide⟩, ⟨cachedCheck "first", 1012, by decide⟩,
    ⟨cachedCheck "next", 1012, by decide⟩]

def cachedRun : List (ProofCheck × ProofResult) × DpopReplayCache :=
  execAll (verifyAt minuteConfig.formats minuteConfig.dpop 1) .default [] cachedChecks

theorem replay_cache_exact_full : CacheExact minuteConfig.dpop 1 cachedRun.1 cachedRun.2
      ∧ cachedRun.1.map (·.2) = [.replayCacheFull, .replayDetected, .accepted] :=
  ⟨(replay_cache_exact minuteConfig.formats minuteConfig.dpop 1 _ _ (run_execAll _ cachedChecks)
    (by decide +kernel)).1, by decide +kernel⟩

end NazoAuth.Replay
