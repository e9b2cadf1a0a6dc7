import NazoAuth.Basic
import NazoAuth.Lib.Sha1
import NazoAuth.Lib.Table

/-!
# One-time codes at login

A code belongs to a step of thirty seconds. `verifiedTotpStep` looks for it in the steps around the
clock and takes the first one that has it; `verifyAndConsumeTotp` accepts that step when it is later
than the last one that was used, and remembers it. A later step that has the same code is not looked
at.
-/

namespace NazoAuth.Identity

open Lib

def mfaTotpPeriodSeconds : Int := 30

def mfaTotpDigits : Nat := 6

def isAsciiWhitespace (c : Char) : Bool := c = ' ' || c = '\t' || c = '\n' || c = '\x0c' || c = '\r'

/-- The bits that were read and not written, their number, and the bytes that were written. -/
structure Base32 where
  buffer : Nat
  bits : Nat
  output : List UInt8

def base32Index (c : Char) : Option Nat :=
  if 'A' ≤ c && c ≤ 'Z' then some (c.toNat - 'A'.toNat)
  else if '2' ≤ c && c ≤ '7' then some (c.toNat - '2'.toNat + 26)
  else none

def Base32.push (s : Base32) (c : Char) : Option Base32 :=
  if c.toUpper = '=' then some s
  else (base32Index c.toUpper).map fun index =>
    let buffer := (s.buffer * 32 + index) % 2 ^ 32
    let bits := s.bits + 5
    if 8 ≤ bits then ⟨buffer, bits - 8, s.output ++ [UInt8.ofNat (buffer / 2 ^ (bits - 8))]⟩
      else ⟨buffer, bits, s.output⟩

def base32Decode (value : String) : Option (List UInt8) :=
  (((value.toList.filter fun c => !isAsciiWhitespace c).foldlM Base32.push ⟨0, 0, []⟩).map (·.output)).filter
    fun output => !output.isEmpty

def totpValue (secret : List UInt8) (step : Nat) : Nat :=
  let digest := hmacSha1 secret (bigEndian 8 step)
  let offset := (digest.getD 19 0).toNat % 16
  ofBigEndian ((digest.drop offset).take 4) % 2 ^ 31 % 10 ^ mfaTotpDigits

/-- The number that a code of digits stands for. -/
def codeValue (code : String) : Nat :=
  code.toList.foldl (fun value digit => value * 10 + (digit.toNat - '0'.toNat)) 0

def isTotpCode (code : String) : Bool := code.utf8ByteSize = mfaTotpDigits && code.toList.all Char.isDigit

def verifiedTotpStep (secretBase32 code : String) (now : Int) (lastUsedStep : Option Int) : Option Int :=
  if !isTotpCode (trim code) then none
  else (base32Decode secretBase32).bind fun secret =>
    [-1, 0, 1].findSome? fun offset =>
      let candidateStep := now / mfaTotpPeriodSeconds + offset
      if candidateStep < 0 || lastUsedStep.any (fun last => candidateStep ≤ last) then none
      else if totpValue secret candidateStep.toNat = codeValue (trim code) then some candidateStep
      else none

structure TotpCredential where
  id : Uuid
  tenantId : Uuid
  userId : Uuid
  secret : String
  confirmed : Bool
  lastUsedStep : Option Int

def TotpCredential.key (c : TotpCredential) : Uuid × Uuid := (c.tenantId, c.userId)

inductive TotpVerificationOutcome where
  | accepted (credentialId : Uuid)
  | invalid
  | replay
  deriving DecidableEq

/-- The credentials after a step of a user was used. -/
def useStep (credentials : Table TotpCredential.key) (tenantId userId : Uuid) (step : Int) :
    Table TotpCredential.key :=
  credentials.update (fun c => c.key = (tenantId, userId)) (fun c => { c with lastUsedStep := some step })
    fun _ => rfl

def verifyAndConsumeTotp (credentials : Table TotpCredential.key) (tenantId userId : Uuid)
    (code : String) (now : Int) : Table TotpCredential.key × TotpVerificationOutcome :=
  match (credentials.find? (tenantId, userId)).filter (·.confirmed) with
  | none => (credentials, .invalid)
  | some credential =>
    match verifiedTotpStep credential.secret code now none with
    | none => (credentials, .invalid)
    | some step =>
      if credential.lastUsedStep.any fun last => step ≤ last then (credentials, .replay)
      else (useStep credentials tenantId userId step, .accepted credential.id)

/-- The code is the value of a step around the clock. -/
structure Shows (secret : List UInt8) (code : String) (now step : Int) : Prop where
  counter : 0 ≤ step
  window : now / mfaTotpPeriodSeconds - 1 ≤ step ∧ step ≤ now / mfaTotpPeriodSeconds + 1
  value : totpValue secret step.toNat = codeValue (trim code)

variable {secret : List UInt8} {secretBase32 code : String} {now step first : Int}

theorem Shows.offset (h : Shows secret code now step) :
    step - now / mfaTotpPeriodSeconds ∈ [(-1 : Int), 0, 1] := by
  obtain ⟨hlow, hhigh⟩ := h.window
  have hcases : step - now / mfaTotpPeriodSeconds = -1 ∨ step - now / mfaTotpPeriodSeconds = 0
      ∨ step - now / mfaTotpPeriodSeconds = 1 := by omega
  simpa using hcases

/-- The step that is found has the code, and no earlier step of the window has it. -/
theorem shows_of_verified (hsecret : base32Decode secretBase32 = some secret)
    (h : verifiedTotpStep secretBase32 code now none = some first) :
    Shows secret code now first ∧ ∀ step, Shows secret code now step → first ≤ step := by
  unfold verifiedTotpStep at h
  split_ifs at h
  rw [hsecret] at h
  obtain ⟨before, offset, after, hsplit, hfound, hnone⟩ := List.findSome?_eq_some_iff.mp h
  dsimp only at hfound
  split_ifs at hfound with hskip hvalue
  cases hfound
  have hcounter : ¬ now / mfaTotpPeriodSeconds + offset < 0 := by simpa using hskip
  have hoffset : offset ∈ [(-1 : Int), 0, 1] := by simp [hsplit]
  have hwindow : offset = -1 ∨ offset = 0 ∨ offset = 1 := by simpa using hoffset
  refine ⟨⟨Int.not_lt.mp hcounter, by omega, hvalue⟩, fun step hstep => Int.not_lt.mp fun hlt => ?_⟩
  -- The offsets are tried in their order, so an earlier step was tried before and would have been found.
  have hsorted : ([-1, 0, 1] : List Int).Pairwise (· < ·) := by decide
  have hmem := hstep.offset
  rw [hsplit] at hsorted hmem
  obtain ⟨-, hsorted, -⟩ := List.pairwise_append.mp hsorted
  have hbefore : step - now / mfaTotpPeriodSeconds ∈ before := by
    rcases List.mem_append.mp hmem with hbefore | hlater
    · exact hbefore
    · rcases List.mem_cons.mp hlater with heq | hafter
      · omega
      · have := (List.pairwise_cons.mp hsorted).1 _ hafter
        omega
  have hnot := hnone _ hbefore
  have hcandidate : now / mfaTotpPeriodSeconds + (step - now / mfaTotpPeriodSeconds) = step := by omega
  simp [hcandidate, Int.not_lt.mpr hstep.counter, hstep.value] at hnot

/-- A code of the window is found. -/
theorem verified_of_shows (hcode : isTotpCode (trim code) = true)
    (hsecret : base32Decode secretBase32 = some secret) (h : Shows secret code now step) :
    ∃ first, verifiedTotpStep secretBase32 code now none = some first := by
  refine Option.isSome_iff_exists.mp ?_
  rw [verifiedTotpStep, hcode, hsecret]
  refine List.findSome?_isSome_iff.mpr ⟨_, h.offset, ?_⟩
  have hstep : now / mfaTotpPeriodSeconds + (step - now / mfaTotpPeriodSeconds) = step := by omega
  simp [hstep, Int.not_lt.mpr h.counter, h.value]

/-- **A code of the window is accepted exactly when every step of the window that has it is later
than the last one that was used.** Only the first of these steps is looked at. -/
theorem totp_accepted (credentials : Table TotpCredential.key) (tenantId userId : Uuid)
    (credential : TotpCredential) (secret : List UInt8) (code : String) (now shown : Int)
    (hfound : credentials.find? (tenantId, userId) = some credential)
    (hconfirmed : credential.confirmed = true) (hsecret : base32Decode credential.secret = some secret)
    (hcode : isTotpCode (trim code) = true) (hshows : Shows secret code now shown) :
    (∃ step, Shows secret code now step ∧ verifyAndConsumeTotp credentials tenantId userId code now
        = (useStep credentials tenantId userId step, .accepted credential.id))
      ↔ ∀ step, Shows secret code now step → ∀ last ∈ credential.lastUsedStep, last < step := by
  obtain ⟨first, hverified⟩ := verified_of_shows hcode hsecret hshows
  obtain ⟨hfirst, hleast⟩ := shows_of_verified hsecret hverified
  rw [verifyAndConsumeTotp, hfound, Option.filter_some, if_pos hconfirmed]
  simp only [hverified]
  by_cases hused : (credential.lastUsedStep.any fun last => first ≤ last) = true
  · obtain ⟨last, hlast, hle⟩ := (Option.any_eq_true _ _).mp hused
    rw [if_pos hused]
    refine ⟨fun ⟨_, _, h⟩ => (nomatch congrArg Prod.snd h), fun hall => ?_⟩
    have := hall first hfirst last hlast
    simp only [decide_eq_true_eq] at hle
    omega
  · rw [if_neg hused]
    refine ⟨fun _ step hstep last hlast => ?_, fun _ => ⟨first, hfirst, rfl⟩⟩
    rw [Bool.not_eq_true, Option.any_eq_false] at hused
    have hlt : last < first := by simpa using hused last hlast
    exact Int.lt_of_lt_of_le hlt (hleast step hstep)

/-- A user whose secret has the code 235522 in two steps, one after the other. -/
def repeating (lastUsedStep : Option Int) : Table TotpCredential.key :=
  ⟨[⟨3, 1, 2, "GEZDGNBVGY3TQOJQGEZDGNBVGY3TQOJQ", true, lastUsedStep⟩], List.nodup_singleton _⟩

def repeatingSecret : List UInt8 := utf8 "12345678901234567890"

/-- The first step was used; in the second one its code is refused. -/
theorem repeated_code_refused : base32Decode "GEZDGNBVGY3TQOJQGEZDGNBVGY3TQOJQ" = some repeatingSecret
    ∧ isTotpCode (trim "235522") = true ∧ Shows repeatingSecret "235522" 1862261070 62075369
    ∧ (verifyAndConsumeTotp (repeating (some 62075368)) 1 2 "235522" 1862261070).2 = .replay :=
  ⟨by decide +kernel, by decide +kernel, ⟨by decide, by decide, by decide +kernel⟩, by decide +kernel⟩

theorem totp_accepted_repeating :
    ∃ step, verifyAndConsumeTotp (repeating (some 62075367)) 1 2 "235522" 1862261070
      = (useStep (repeating (some 62075367)) 1 2 step, .accepted 3) := by
  have hshows : Shows repeatingSecret "235522" 1862261070 62075368 := ⟨by decide, by decide, by decide +kernel⟩
  obtain ⟨step, -, haccepted⟩ :=
    (totp_accepted (repeating (some 62075367)) 1 2 _ repeatingSecret "235522" 1862261070 _
    rfl rfl (by decide +kernel) (by decide +kernel) hshows).mpr (by
      rintro step ⟨-, ⟨hlow, -⟩, -⟩ last hlast
      cases hlast
      exact Int.lt_of_lt_of_le (by decide) hlow)
  exact ⟨step, haccepted⟩

end NazoAuth.Identity
