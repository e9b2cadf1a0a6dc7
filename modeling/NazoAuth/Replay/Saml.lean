import NazoAuth.Lib.Base64
import NazoAuth.Lib.JsonText
import NazoAuth.Replay.History

/-!
# Replay — assertions of the SAML gateway

The gateway signs the issuer, the audience, the subject, the email, the issue time and the expiry,
one on a line. The subject may have line breaks; the fields after it have none, so the lines are
read from the end.
-/

namespace NazoAuth.Replay

open Lib Lib.Json

structure SamlGatewaySettings where
  issuer : String
  audience : String
  secret : String

structure SamlGatewayAssertion where
  issuer : String
  audience : String
  subject : String
  email : String
  iat : Int
  exp : Int
  signature : String

def samlAssertionClockSkewSeconds : Int := 60

def samlAssertionMaxTtlSeconds : Int := 300

def samlReplayTtlSeconds : Int := samlAssertionMaxTtlSeconds + samlAssertionClockSkewSeconds

structure SamlFormats where
  /-- HMAC-SHA256 under a secret. -/
  hmac : String → List Char → List UInt8
  /-- `normalize_email_address`. -/
  normalizeEmail : String → Option String
  /-- The hash of a signature in the key of its marker. -/
  digest : String → String

/-- What `saml_gateway_mac` signs. -/
def samlGatewayMessage (issuer audience subject email : String) (iat exp : Int) : List Char :=
  issuer.toList ++ '\n' :: (audience.toList ++ '\n' :: (subject.toList ++ '\n' :: (email.toList ++ '\n' ::
    (compactInt iat ++ '\n' :: compactInt exp))))

variable (f : SamlFormats) (settings : SamlGatewaySettings)

def validSamlGatewayAssertion (assertion : SamlGatewayAssertion) (normalizedEmail : String)
    (now : Int) : Bool :=
  if assertion.issuer ≠ settings.issuer || assertion.audience ≠ settings.audience || isBlank assertion.subject
      || assertion.iat > saturate (now + samlAssertionClockSkewSeconds) || assertion.exp ≤ now
      || saturate (assertion.exp - assertion.iat) > samlAssertionMaxTtlSeconds then false
  else
    match decode64? assertion.signature.toList with
    | none => false
    | some signature => signature.length = 32 && signature = f.hmac settings.secret
        (samlGatewayMessage assertion.issuer assertion.audience assertion.subject normalizedEmail assertion.iat
          assertion.exp)

def samlFederationReplay (signature : String) : String :=
  "oauth:federation:saml:replay:" ++ f.digest signature

/-- The lifetime of a marker: `consume_saml_assertion`. -/
def samlMarkerTtl (expiresAt now : Int) : Int := min (max (saturate (expiresAt - now)) 1) samlReplayTtlSeconds

structure SamlCall where
  assertion : SamlGatewayAssertion
  now : Nat

/-- `federation_saml_acs` up to the login; the assertion is checked and consumed at one instant. -/
def consumeSamlAssertion (call : SamlCall) : Consumption :=
  match f.normalizeEmail call.assertion.email with
  | none => .refused
  | some email =>
    if validSamlGatewayAssertion f settings call.assertion email (unixSeconds call.now) then
      .set (samlFederationReplay f call.assertion.signature)
        (.ex (samlMarkerTtl call.assertion.exp (unixSeconds call.now)))
    else .refused

def federationSamlAcs : Store → SamlCall → Store × Outcome :=
  serve (consumeSamlAssertion f settings) SamlCall.now

/-! ## The signed message is unambiguous -/

/-- The last line is what comes after the last line break. -/
theorem last_line_inj {c : Char} {x x' y y' : List Char} (hy : c ∉ y) (hy' : c ∉ y')
    (h : x ++ c :: y = x' ++ c :: y') : x = x' ∧ y = y' := by
  -- a rest that is not empty would put the line break into the last line
  rcases List.append_eq_append_iff.mp h with ⟨rest, rfl, hrest⟩ | ⟨rest, rfl, hrest⟩
  all_goals
    cases rest with
    | nil | cons => simp_all

theorem newline_notMem_compactInt (n : Int) : '\n' ∉ compactInt n := by
  have hdigits : '\n' ∉ Nat.toDigits 10 n.natAbs := fun h =>
    absurd (Nat.isDigit_of_mem_toDigits (by decide) (by decide) h) (by decide)
  unfold compactInt
  split_ifs <;> simp [hdigits]

theorem compactInt_injective : Function.Injective compactInt := by
  intro n m h
  have hends : Ends [] := fun c hc => by cases hc
  have hn := readValue_compactInt n 0 hends
  rw [h, readValue_compactInt m 0 hends] at hn
  simpa using hn.symm

theorem samlGatewayMessage_inj {issuer audience subject subject' email email' : String}
    {iat iat' exp exp' : Int} (hemail : '\n' ∉ email.toList) (hemail' : '\n' ∉ email'.toList)
    (h : samlGatewayMessage issuer audience subject email iat exp = samlGatewayMessage issuer audience subject'
    email' iat' exp') : subject = subject' ∧ email = email' ∧ iat = iat' ∧ exp = exp' := by
  have hlines := List.append_cancel_left (List.cons.inj (List.append_cancel_left h)).2
  replace hlines := (List.cons.inj hlines).2
  simp only [← List.cons_append, ← List.append_assoc] at hlines
  obtain ⟨hrest, hexp⟩ := last_line_inj (newline_notMem_compactInt exp) (newline_notMem_compactInt exp') hlines
  obtain ⟨hrest, hiat⟩ := last_line_inj (newline_notMem_compactInt iat) (newline_notMem_compactInt iat') hrest
  obtain ⟨hsubject, hemails⟩ := last_line_inj hemail hemail' hrest
  exact ⟨String.toList_injective hsubject, String.toList_injective hemails, compactInt_injective hiat,
    compactInt_injective hexp⟩

/-! ## Accepted once -/

variable {f : SamlFormats} {settings : SamlGatewaySettings}

/-- A valid assertion is not over, and its marker lives until it is. -/
theorem window_of_valid {assertion : SamlGatewayAssertion} {email : String} {now : Nat}
    (h : validSamlGatewayAssertion f settings assertion email (unixSeconds now) = true) :
    unixSeconds now < assertion.exp
      ∧ samlMarkerTtl assertion.exp (unixSeconds now) = assertion.exp - unixSeconds now := by
  unfold validSamlGatewayAssertion at h
  split_ifs at h with hbad
  simp only [Bool.or_eq_true, decide_eq_true_eq] at hbad
  have hpos := unixSeconds_nonneg now
  simp only [saturate, samlMarkerTtl, samlReplayTtlSeconds, samlAssertionMaxTtlSeconds,
    samlAssertionClockSkewSeconds] at *
  omega

theorem signed_of_valid {assertion : SamlGatewayAssertion} {email : String} {now : Int}
    (h : validSamlGatewayAssertion f settings assertion email now = true) :
    decode64? assertion.signature.toList
    = some (f.hmac settings.secret (samlGatewayMessage settings.issuer settings.audience
      assertion.subject email assertion.iat assertion.exp)) := by
  unfold validSamlGatewayAssertion at h
  split_ifs at h with hbad
  simp only [Bool.or_eq_true, decide_eq_true_eq, not_or, not_not] at hbad
  obtain ⟨⟨⟨⟨⟨hissuer, haudience⟩, -⟩, -⟩, -⟩, -⟩ := hbad
  split at h
  · cases h
  · rename_i signature hdecoded
    simp only [Bool.and_eq_true, decide_eq_true_eq] at h
    rw [hdecoded, h.2, hissuer, haudience]

/-- **A signature is valid for one tuple.** -/
theorem tuple_of_signature (hmac : Function.Injective (f.hmac settings.secret)) {a a' : SamlGatewayAssertion}
    {email email' : String} {now now' : Int} (hemail : '\n' ∉ email.toList)
    (hemail' : '\n' ∉ email'.toList) (h : validSamlGatewayAssertion f settings a email now = true)
    (h' : validSamlGatewayAssertion f settings a' email' now' = true) (hsame : a.signature = a'.signature) :
    a.subject = a'.subject ∧ email = email' ∧ a.iat = a'.iat ∧ a.exp = a'.exp := by
  have hsigned := signed_of_valid h
  rw [hsame, signed_of_valid h'] at hsigned
  exact samlGatewayMessage_inj hemail hemail' (hmac (Option.some.inj hsigned)).symm

theorem grants_saml {call : SamlCall} {key : String} {d : Int}
    (h : Grants (consumeSamlAssertion f settings) SamlCall.now call key d) :
    key = samlFederationReplay f call.assertion.signature
      ∧ deadline call.now (.ex (samlMarkerTtl call.assertion.exp (unixSeconds call.now))) = some d
      ∧ ∃ email, f.normalizeEmail call.assertion.email = some email
        ∧ validSamlGatewayAssertion f settings call.assertion email (unixSeconds call.now) = true := by
  obtain ⟨expiration, hasks, hdeadline⟩ := h
  unfold consumeSamlAssertion at hasks
  split at hasks
  · cases hasks
  rename_i email hemail
  split_ifs at hasks with hvalid
  cases hasks
  exact ⟨rfl, hdeadline, email, hemail, hvalid⟩

/-- What the gateway signs of an assertion. -/
def signedFields (f : SamlFormats) (assertion : SamlGatewayAssertion) : String × Option String × Int × Int :=
  (assertion.subject, f.normalizeEmail assertion.email, assertion.iat, assertion.exp)

/-- What holds of the assertions that the endpoint takes. -/
structure SamlExact (f : SamlFormats) (settings : SamlGatewaySettings)
    (log : List (SamlCall × Outcome)) : Prop where
  /-- A signature that is valid for one subject, email, issue time and expiry is valid for no other. -/
  unambiguous : ∀ (a a' : SamlGatewayAssertion) (email email' : String) (now now' : Int), '\n' ∉ email.toList →
    '\n' ∉ email'.toList → validSamlGatewayAssertion f settings a email now = true →
    validSamlGatewayAssertion f settings a' email' now' = true → a.signature = a'.signature →
    a.subject = a'.subject ∧ email = email' ∧ a.iat = a'.iat ∧ a.exp = a'.exp
  /-- An assertion is accepted at most once, over all time. -/
  once : ∀ fields, log.countP (fun e => signedFields f e.1.assertion = fields && e.2.isAccepted) ≤ 1

/-- **Assertions of the SAML gateway are unambiguous and single use.** -/
theorem saml_assertions_exact {store₀ store : Store} {log : List (SamlCall × Outcome)}
    (hmac : Function.Injective (f.hmac settings.secret))
    (hrun : Run (federationSamlAcs f settings) store₀ log store)
    (htimed : TimedBy (fun e => (e.1.now : Int)) log) : SamlExact f settings log := by
  refine ⟨fun _ _ _ _ _ _ hemail hemail' h h' hsame => tuple_of_signature hmac hemail hemail' h h' hsame,
    fun fields => ?_⟩
  refine served_once hrun htimed (fun _ h => (Bool.and_eq_true _ _ ▸ h).2) ?_
  intro e _ e' _ hp hp' key d key' d' hgrants hgrants'
  simp only [Bool.and_eq_true, decide_eq_true_eq] at hp hp'
  obtain ⟨rfl, -, email, hemail, hvalid⟩ := grants_saml hgrants
  obtain ⟨rfl, hdeadline, email', hemail', hvalid'⟩ := grants_saml hgrants'
  have hfields := hp.1.trans hp'.1.symm
  simp only [signedFields, Prod.mk.injEq, hemail, hemail', Option.some.injEq] at hfields
  obtain ⟨hsubject, rfl, hiat, hexp⟩ := hfields
  have hsigned := signed_of_valid hvalid
  have hsigned' := signed_of_valid hvalid'
  constructor
  · -- one tuple has one signature, and the signature has one encoding
    rw [hsubject, hiat, hexp] at hsigned
    have htext := (encode64_of_decode64? hsigned).symm.trans (encode64_of_decode64? hsigned')
    rw [String.toList_injective htext]
  · intro _
    obtain ⟨hlt, -⟩ := window_of_valid hvalid
    obtain ⟨-, httl⟩ := window_of_valid hvalid'
    exact live_of_ttl hdeadline (by omega)

/-! An assertion that is presented twice, with a code that repeats the message. -/

def echo : SamlFormats := ⟨fun _ message => message.flatMap String.utf8EncodeChar, some, id⟩

def gateway : SamlGatewaySettings := ⟨"idp", "as", "secret"⟩

def samlAssertion : SamlGatewayAssertion where
  issuer := "idp"
  audience := "as"
  subject := "user\n1"
  email := "u@example.co"
  iat := 90
  exp := 99
  signature := String.ofList (encode64
    (echo.hmac "" (samlGatewayMessage "idp" "as" "user\n1" "u@example.co" 90 99)))

def samlCalls : List (SamlCall × Outcome) × Store :=
  execAll (federationSamlAcs echo gateway) (fun _ => none) [] [⟨samlAssertion, 95000⟩, ⟨samlAssertion, 98999⟩]

theorem saml_assertions_exact_twice : samlCalls.1.map (·.2.isAccepted) = [false, true]
      ∧ SamlExact echo gateway samlCalls.1 := by
  refine ⟨by decide +kernel, saml_assertions_exact (fun m m' h => ?_) (run_execAll _ _) ?_⟩
  · exact String.ofList_injective (String.toByteArray_inj.mp (congrArg List.toByteArray h))
  · decide +kernel

end NazoAuth.Replay
