import Mathlib.Data.UInt
import NazoAuth.Lib.Base64
import NazoAuth.OperatorProtocol.Operation

/-!
# Operator protocol — canonical bytes and signed operations

The canonical bytes of an operation are the compact text of its value, with the names of all objects
in order. They are what is hashed and what is signed. A verifier decodes the payload, encodes it
again and refuses the payload if it is not these bytes.

The JSON library is a reader of compact text (`JsonReader`), Ed25519 a scheme whose signatures
verify (`SignatureScheme`). Texts are lists of characters; their length is that of their bytes.
-/

namespace NazoAuth.OperatorProtocol

open Lib Operator

/-- Signatures of 64 bytes that verify under the key of the signer, and a hash. -/
structure SignatureScheme where
  SigningKey : Type
  VerifyingKey : Type
  verifyingKey : SigningKey → VerifyingKey
  toBytes : VerifyingKey → List UInt8
  sign : SigningKey → List UInt8 → List UInt8
  verify : VerifyingKey → List UInt8 → List UInt8 → Bool
  sha256 : List UInt8 → List UInt8
  length_sign : ∀ key message, (sign key message).length = 64
  verify_sign : ∀ key message, verify (verifyingKey key) message (sign key message) = true

def controlOperationJwsType : String := "nazoauth-control-operation+jwt"

def maxControlOperationBytes : Nat := 64 * 1024

def maxCompactJwsBytes : Nat := 64 * 1024

/-! ## Canonical bytes -/

/-- The bytes before their size is checked. -/
def encodeOperation (operation : ControlOperation) : List UInt8 := operation.serialize.value.compactBytes

def canonicalControlOperationBytes (operation : ControlOperation) : Except ProtocolError (List UInt8) := do
  validateControlOperation operation
  if maxControlOperationBytes < (encodeOperation operation).length then .error .tooLarge
  else .ok (encodeOperation operation)

def decodeOperation (json : JsonReader) (bytes : List UInt8) : Except ProtocolError ControlOperation :=
  match (json.read bytes).bind ControlOperation.deserialize with
  | some operation => .ok operation
  | none => .error .json

section Signing

variable (scheme : SignatureScheme) (json : JsonReader)

def controllerKeyId (key : scheme.VerifyingKey) : String :=
  String.ofList (encode64 (scheme.sha256 (scheme.toBytes key)))

/-- Lower-case hexadecimal digits of the hash. -/
def controlOperationRequestHash (canonical : List UInt8) : String :=
  String.ofList ((scheme.sha256 canonical).flatMap fun b => toHex 2 b.toNat)

/-! ## Signing -/

def protectedHeader (kid : String) : Json :=
  .obj [("alg", .str "EdDSA"), ("kid", .str kid), ("typ", .str controlOperationJwsType)]

def encodeProtectedHeader (kid : String) : List Char := encode64 (protectedHeader kid).compactBytes

/-- A dot and the 86 characters of a signature are added in the end. -/
def signPayload (header : List Char) (payload : List UInt8) (key : scheme.SigningKey) :
    Except ProtocolError (List Char) :=
  let compact := header ++ '.' :: encode64 payload
  if maxCompactJwsBytes - 87 < (textBytes compact).length then .error .tooLarge
  else .ok (compact ++ '.' :: encode64 (scheme.sign key (textBytes compact)))

/-- The compact JWS and the request hash. -/
def signControlOperation (operation : ControlOperation) (key : scheme.SigningKey) :
    Except ProtocolError (List Char × String) := do
  let canonical ← canonicalControlOperationBytes operation
  if operation.kid ≠ controllerKeyId scheme (scheme.verifyingKey key) then
    .error (.policy "controller kid does not match signer")
  let compact ← signPayload scheme (encodeProtectedHeader operation.kid) canonical key
  .ok (compact, controlOperationRequestHash scheme canonical)

/-! ## Verification -/

structure Segments where
  header : List Char
  payload : List Char
  signature : List Char

def controlOperationSegments (compact : List Char) : Except ProtocolError Segments :=
  match compact.splitOn '.' with
  | [header, payload, signature] =>
    if header.isEmpty || payload.isEmpty || signature.isEmpty then .error .segmentCount
      else .ok ⟨header, payload, signature⟩
  | _ => .error .segmentCount

/-- The part of a compact JWS that is signed. -/
def Segments.signingInput (s : Segments) : List UInt8 := textBytes (s.header ++ '.' :: s.payload)

def decodeSegment (segment : List Char) : Except ProtocolError (List UInt8) :=
  match decode64? segment with
  | some bytes => .ok bytes
  | none => .error .base64

/-- The algorithm of a header; there is one. -/
def isEdDSA : Json → Bool
  | .str s => s = "EdDSA"
  | .obj [(s, .null)] => s = "EdDSA"
  | _ => false

/-- The key identifier and the type of a header. -/
def readProtectedHeader (bytes : List UInt8) : Option (String × String) :=
  match (json.read bytes).bind (Json.fields? ["alg", "kid", "typ"]) with
  | some [alg, kid, typ] => do
    let kid ← kid.str?
    let typ ← typ.str?
    if isEdDSA alg then some (kid, typ) else none
  | _ => none

def verifyControlOperationHeader (header : List Char) (expectedKid : String) : Except ProtocolError Unit := do
  let bytes ← decodeSegment header
  match readProtectedHeader json bytes with
  | none => .error .header
  | some (kid, typ) => if typ ≠ controlOperationJwsType || kid ≠ expectedKid then .error .header else .ok ()

def ensureControlOperationKid (operation : ControlOperation) (expectedKid : String) : Except ProtocolError Unit :=
  if operation.kid ≠ expectedKid then .error (.policy "envelope kid does not match the controller key id claim")
    else .ok ()

def verifySignature (signingInput : List UInt8) (signature : List Char)
    (key : scheme.VerifyingKey) : Except ProtocolError Unit := do
  let bytes ← decodeSegment signature
  if bytes.length ≠ 64 || !scheme.verify key signingInput bytes then .error .signature else .ok ()

def verifyControlOperationPayload (signingInput : List UInt8) (signature : List Char)
    (canonicalPayload : Bool) (key : scheme.VerifyingKey) : Except ProtocolError Unit :=
  if !canonicalPayload then .error (.policy "control operation payload is not canonically encoded")
  else verifySignature scheme signingInput signature key

def checkExpectedKid (expectedKid : String) : Except ProtocolError Unit :=
  (validateControllerKid expectedKid).mapError fun _ => .header

def verifyControlOperationSignature (compact : List Char) (expectedKid : String)
    (key : scheme.VerifyingKey) : Except ProtocolError ControlOperation := do
  if maxCompactJwsBytes < (textBytes compact).length then .error .tooLarge
  checkExpectedKid expectedKid
  let segments ← controlOperationSegments compact
  verifyControlOperationHeader json segments.header expectedKid
  let payload ← decodeSegment segments.payload
  let operation ← decodeOperation json payload
  ensureControlOperationKid operation expectedKid
  let canonical ← canonicalControlOperationBytes operation
  verifyControlOperationPayload scheme segments.signingInput segments.signature (payload = canonical) key
  .ok operation

/-- What is known of an operation before it is verified. -/
structure PresentedControlOperation where
  segments : Segments
  canonicalPayload : Bool
  operation : ControlOperation
  canonical : List UInt8

def PresentedControlOperation.parse (compact : List Char) : Except ProtocolError PresentedControlOperation := do
  if maxCompactJwsBytes < (textBytes compact).length then .error .tooLarge
  let segments ← controlOperationSegments compact
  let payload ← decodeSegment segments.payload
  let operation ← decodeOperation json payload
  let canonical ← canonicalControlOperationBytes operation
  .ok ⟨segments, payload = canonical, operation, canonical⟩

def PresentedControlOperation.requestHash (presented : PresentedControlOperation) : String :=
  controlOperationRequestHash scheme presented.canonical

def PresentedControlOperation.verify (presented : PresentedControlOperation) (expectedKid : String)
    (key : scheme.VerifyingKey) : Except ProtocolError ControlOperation := do
  checkExpectedKid expectedKid
  verifyControlOperationHeader json presented.segments.header expectedKid
  ensureControlOperationKid presented.operation expectedKid
  verifyControlOperationPayload scheme presented.segments.signingInput presented.segments.signature
    presented.canonicalPayload key
  .ok presented.operation

end Signing

/-! ## Canonical bytes are an encoding -/

section Encoding

variable {scheme : SignatureScheme} {json : JsonReader} {operation : ControlOperation}

theorem decodeOperation_encodeOperation (operation : ControlOperation) :
    decodeOperation json (encodeOperation operation) = .ok operation := by
  have hread : json.read (encodeOperation operation) = some operation.serialize.value :=
    json.read_compact _ operation.exact.value
  rw [decodeOperation, hread, Option.bind_some, operation.deserialize_value]

variable {bytes : List UInt8}

theorem canonical_eq_ok : canonicalControlOperationBytes operation = .ok bytes ↔
    validateControlOperation operation = .ok () ∧ (encodeOperation operation).length ≤ maxControlOperationBytes
      ∧ bytes = encodeOperation operation := by
  constructor
  · intro h
    obtain ⟨⟨⟩, hvalid, h⟩ := of_bind h
    split_ifs at h with hsize
    exact ⟨hvalid, Nat.not_lt.mp hsize, (Except.ok.inj h).symm⟩
  · rintro ⟨hvalid, hsize, rfl⟩
    exact bind_eq_ok.mpr ⟨(), hvalid, if_neg (Nat.not_lt.mpr hsize)⟩

theorem decodeOperation_canonical (h : canonicalControlOperationBytes operation = .ok bytes) :
    decodeOperation json bytes = .ok operation := by
  obtain ⟨-, -, rfl⟩ := canonical_eq_ok.mp h
  exact decodeOperation_encodeOperation operation

/-! ## Signed operations -/

theorem compactBytes_obj_ne_nil (members : List (String × Json)) : (Json.obj members).compactBytes ≠ [] := by
  exact List.cons_ne_nil 123 _

theorem encodeOperation_ne_nil (operation : ControlOperation) : encodeOperation operation ≠ [] := by
  exact compactBytes_obj_ne_nil _

theorem encode64_ne_nil (h : bytes ≠ []) : encode64 bytes ≠ [] := by
  intro hnil
  have hlength := length_encode64 bytes
  rw [hnil, List.length_nil] at hlength
  have hpos := List.length_pos_of_ne_nil h
  omega

/-- The compact form of three parts. -/
def compactJws (header payload signature : List UInt8) : List Char :=
  encode64 header ++ '.' :: encode64 payload ++ '.' :: encode64 signature

theorem segments_compactJws {header payload signature : List UInt8} (hheader : header ≠ [])
    (hpayload : payload ≠ []) (hsignature : signature ≠ []) :
    controlOperationSegments (compactJws header payload signature)
      = .ok ⟨encode64 header, encode64 payload, encode64 signature⟩ := by
  have hjoin : compactJws header payload signature
      = List.intercalate ['.'] ([header, payload, signature].map encode64) := by
    simp [compactJws]
  have hsplit : (compactJws header payload signature).splitOn '.'
      = [encode64 header, encode64 payload, encode64 signature] := by
    rw [hjoin]
    exact splitOn_encode64 (by decide) (List.cons_ne_nil _ _)
  rw [controlOperationSegments, hsplit]
  simp [encode64_ne_nil hheader, encode64_ne_nil hpayload, encode64_ne_nil hsignature]

theorem decodeSegment_encode64 (bytes : List UInt8) : decodeSegment (encode64 bytes) = .ok bytes := by
  rw [decodeSegment, decode64?_encode64]

theorem exact_protectedHeader (kid : String) : (protectedHeader kid).Exact 127 := by
  have h : (protectedHeader kid).Exact 2 := Json.exact_obj (by simp [Json.exact_str])
  exact h.mono (by decide)

theorem header_verifies (kid : String) :
    verifyControlOperationHeader json (encodeProtectedHeader kid) kid = .ok () := by
  have hread : readProtectedHeader json (protectedHeader kid).compactBytes
      = some (kid, controlOperationJwsType) := by
    rw [readProtectedHeader, json.read_compact _ (exact_protectedHeader kid)]
    simp [protectedHeader, Json.fields?, Json.str?, isEdDSA]
  refine bind_eq_ok.mpr ⟨_, decodeSegment_encode64 _, ?_⟩
  simp [hread]

variable {compact : List Char} {key : scheme.VerifyingKey} {presented : PresentedControlOperation}
  {kid : String}

theorem sign_eq_ok {key : scheme.SigningKey} {hash : String}
    (h : signControlOperation scheme operation key = .ok (compact, hash)) :
    ∃ canonical, canonicalControlOperationBytes operation = .ok canonical
      ∧ operation.kid = controllerKeyId scheme (scheme.verifyingKey key)
      ∧ hash = controlOperationRequestHash scheme canonical ∧ (textBytes compact).length ≤ maxCompactJwsBytes
      ∧ compact = compactJws (protectedHeader operation.kid).compactBytes canonical
        (scheme.sign key (textBytes (encodeProtectedHeader operation.kid ++ '.' :: encode64 canonical))) := by
  obtain ⟨canonical, hcanonical, h⟩ := of_bind h
  dsimp only at h
  split_ifs at h with hkid
  · cases h
  obtain ⟨compact', hsign, h⟩ := of_bind h
  cases h
  unfold signPayload at hsign
  dsimp only at hsign
  split_ifs at hsign with hsize
  cases hsign
  refine ⟨canonical, hcanonical, not_not.mp hkid, rfl, ?_, by simp [compactJws, encodeProtectedHeader]⟩
  have hsignature : ∀ message, (textBytes (encode64 (scheme.sign key message))).length = 86 := by
    intro message
    rw [textBytes, length_utf8_encode64, length_encode64, scheme.length_sign]
  have hdot : ∀ text, (textBytes ('.' :: text)).length = (textBytes text).length + 1 :=
    fun text => List.length_cons
  rw [textBytes_append, List.length_append, hdot, hsignature]
  simp only [maxCompactJwsBytes] at hsize ⊢
  omega

theorem payload_verifies (key : scheme.SigningKey) (message : List UInt8) :
    verifyControlOperationPayload scheme message (encode64 (scheme.sign key message)) true
    (scheme.verifyingKey key) = .ok () := by
  refine bind_eq_ok.mpr ⟨_, decodeSegment_encode64 _, ?_⟩
  simp [scheme.length_sign, scheme.verify_sign]

theorem payload_canonical {message : List UInt8} {signature : List Char} {canonicalPayload : Bool}
    (h : verifyControlOperationPayload scheme message signature canonicalPayload key = .ok ()) :
    canonicalPayload = true := by
  unfold verifyControlOperationPayload at h
  split_ifs at h with hcanonical
  simpa using hcanonical

theorem checkExpectedKid_of_valid (h : validateControlOperation operation = .ok ()) :
    checkExpectedKid operation.kid = .ok () := by
  unfold validateControlOperation at h
  split_ifs at h
  · cases h
  obtain ⟨⟨⟩, -, h⟩ := of_bind h
  obtain ⟨⟨⟩, hkid, -⟩ := of_bind h
  rw [checkExpectedKid, hkid]
  rfl

theorem parse_eq_ok :
    PresentedControlOperation.parse json compact = .ok presented ↔ (textBytes compact).length ≤ maxCompactJwsBytes
      ∧ controlOperationSegments compact = .ok presented.segments
      ∧ ∃ payload, decodeSegment presented.segments.payload = .ok payload
        ∧ decodeOperation json payload = .ok presented.operation
        ∧ canonicalControlOperationBytes presented.operation = .ok presented.canonical
        ∧ presented.canonicalPayload = decide (payload = presented.canonical) := by
  unfold PresentedControlOperation.parse
  constructor
  · intro h
    split_ifs at h with hsize
    · cases h
    obtain ⟨segments, hsegments, h⟩ := of_bind h
    obtain ⟨payload, hpayload, h⟩ := of_bind h
    obtain ⟨operation, hoperation, h⟩ := of_bind h
    obtain ⟨canonical, hcanonical, h⟩ := of_bind h
    cases h
    exact ⟨Nat.not_lt.mp hsize, hsegments, payload, hpayload, hoperation, hcanonical, rfl⟩
  · rintro ⟨hsize, hsegments, payload, hpayload, hoperation, hcanonical, hflag⟩
    rw [if_neg (Nat.not_lt.mpr hsize)]
    refine bind_eq_ok.mpr ⟨_, hsegments, bind_eq_ok.mpr ⟨_, hpayload, ?_⟩⟩
    refine bind_eq_ok.mpr ⟨_, hoperation, bind_eq_ok.mpr ⟨_, hcanonical, ?_⟩⟩
    rw [← hflag]

theorem verify_eq_ok : presented.verify scheme json kid key = .ok operation ↔ checkExpectedKid kid = .ok ()
      ∧ verifyControlOperationHeader json presented.segments.header kid = .ok ()
      ∧ ensureControlOperationKid presented.operation kid = .ok ()
      ∧ verifyControlOperationPayload scheme presented.segments.signingInput presented.segments.signature
          presented.canonicalPayload key = .ok ()
      ∧ presented.operation = operation := by
  constructor
  · intro h
    obtain ⟨⟨⟩, hkid, h⟩ := of_bind h
    obtain ⟨⟨⟩, hheader, h⟩ := of_bind h
    obtain ⟨⟨⟩, hclaim, h⟩ := of_bind h
    obtain ⟨⟨⟩, hpayload, h⟩ := of_bind h
    exact ⟨hkid, hheader, hclaim, hpayload, Except.ok.inj h⟩
  · rintro ⟨hkid, hheader, hclaim, hpayload, rfl⟩
    refine bind_eq_ok.mpr ⟨(), hkid, bind_eq_ok.mpr ⟨(), hheader, ?_⟩⟩
    exact bind_eq_ok.mpr ⟨(), hclaim, bind_eq_ok.mpr ⟨(), hpayload, rfl⟩⟩

theorem verifyControlOperationSignature_eq_ok :
    verifyControlOperationSignature scheme json compact kid key = .ok operation ↔
      ∃ presented, PresentedControlOperation.parse json compact = .ok presented
        ∧ presented.verify scheme json kid key = .ok operation := by
  unfold verifyControlOperationSignature
  constructor
  · intro h
    split_ifs at h with hsize
    · cases h
    obtain ⟨⟨⟩, hkid, h⟩ := of_bind h
    obtain ⟨segments, hsegments, h⟩ := of_bind h
    obtain ⟨⟨⟩, hheader, h⟩ := of_bind h
    obtain ⟨payload, hpayload, h⟩ := of_bind h
    obtain ⟨operation', hoperation, h⟩ := of_bind h
    obtain ⟨⟨⟩, hclaim, h⟩ := of_bind h
    obtain ⟨canonical, hcanonical, h⟩ := of_bind h
    obtain ⟨⟨⟩, hsigned, h⟩ := of_bind h
    refine ⟨⟨segments, decide (payload = canonical), operation', canonical⟩, ?_, ?_⟩
    · exact parse_eq_ok.mpr ⟨Nat.not_lt.mp hsize, hsegments, payload, hpayload, hoperation, hcanonical, rfl⟩
    · exact verify_eq_ok.mpr ⟨hkid, hheader, hclaim, hsigned, Except.ok.inj h⟩
  · rintro ⟨presented, hparse, hverify⟩
    obtain ⟨hsize, hsegments, payload, hpayload, hoperation, hcanonical, hflag⟩ := parse_eq_ok.mp hparse
    obtain ⟨hkid, hheader, hclaim, hsigned, rfl⟩ := verify_eq_ok.mp hverify
    rw [if_neg (Nat.not_lt.mpr hsize)]
    refine bind_eq_ok.mpr ⟨(), hkid, bind_eq_ok.mpr ⟨_, hsegments, bind_eq_ok.mpr ⟨(), hheader, ?_⟩⟩⟩
    refine bind_eq_ok.mpr ⟨_, hpayload, bind_eq_ok.mpr ⟨_, hoperation, bind_eq_ok.mpr ⟨(), hclaim, ?_⟩⟩⟩
    refine bind_eq_ok.mpr ⟨_, hcanonical, bind_eq_ok.mpr ⟨(), ?_, rfl⟩⟩
    rw [← hflag]
    exact hsigned

theorem presented_of_sign {key : scheme.SigningKey} {hash : String}
    (h : signControlOperation scheme operation key = .ok (compact, hash)) : ∃ presented,
      PresentedControlOperation.parse json compact = .ok presented ∧ presented.requestHash scheme = hash
        ∧ presented.verify scheme json operation.kid (scheme.verifyingKey key) = .ok operation := by
  obtain ⟨canonical, hcanonical, -, hhash, hsize, rfl⟩ := sign_eq_ok h
  obtain ⟨hvalid, -, hbytes⟩ := canonical_eq_ok.mp hcanonical
  have hnonempty : canonical ≠ [] := hbytes ▸ encodeOperation_ne_nil operation
  have hsignature : ∀ message, scheme.sign key message ≠ [] := fun message =>
    List.ne_nil_of_length_pos (by rw [scheme.length_sign]; decide)
  let message := textBytes (encodeProtectedHeader operation.kid ++ '.' :: encode64 canonical)
  let segments : Segments := ⟨encodeProtectedHeader operation.kid, encode64 canonical,
    encode64 (scheme.sign key message)⟩
  refine ⟨⟨segments, true, operation, canonical⟩, ?_, hhash.symm, ?_⟩
  · refine parse_eq_ok.mpr ⟨hsize, segments_compactJws (compactBytes_obj_ne_nil _) hnonempty (hsignature _),
      canonical, ?_⟩
    refine ⟨decodeSegment_encode64 _, ?_, hcanonical, (decide_eq_true rfl).symm⟩
    exact decodeOperation_canonical hcanonical
  · refine verify_eq_ok.mpr ⟨checkExpectedKid_of_valid hvalid, header_verifies _, ?_, payload_verifies key _, rfl⟩
    exact if_neg (not_not.mpr rfl)

theorem canonical_of_verify (hparse : PresentedControlOperation.parse json compact = .ok presented)
    (hverify : presented.verify scheme json kid key = .ok operation) :
    ∃ segments payload, controlOperationSegments compact = .ok segments
      ∧ decodeSegment segments.payload = .ok payload ∧ canonicalControlOperationBytes operation = .ok payload := by
  obtain ⟨-, hsegments, payload, hpayload, -, hcanonical, hflag⟩ := parse_eq_ok.mp hparse
  obtain ⟨-, -, -, hsigned, rfl⟩ := verify_eq_ok.mp hverify
  have hsame : payload = presented.canonical := of_decide_eq_true (hflag ▸ payload_canonical hsigned)
  exact ⟨presented.segments, payload, hsegments, hpayload, hsame ▸ hcanonical⟩

end Encoding

/-! ## One encoding -/

/-- The payload of a compact JWS is the canonical encoding of an operation. -/
def CarriesCanonical (compact : List Char) (operation : ControlOperation) : Prop :=
  ∃ segments payload, controlOperationSegments compact = .ok segments
    ∧ decodeSegment segments.payload = .ok payload ∧ canonicalControlOperationBytes operation = .ok payload

/-- One encoding of operations, for signers and for both verifiers. -/
structure CanonicalEncoding (scheme : SignatureScheme) (json : JsonReader) : Prop where
  /-- Operations that pass validation are decoded from their bytes. -/
  decoded : ∀ operation, validateControlOperation operation = .ok () →
    decodeOperation json (encodeOperation operation) = .ok operation
  /-- The canonical bytes are these, up to the limit of their size. -/
  canonical : ∀ operation bytes, canonicalControlOperationBytes operation = .ok bytes
    ↔ validateControlOperation operation = .ok ()
    ∧ (encodeOperation operation).length ≤ maxControlOperationBytes ∧ bytes = encodeOperation operation
  /-- Different operations have different bytes. -/
  injective : ∀ operation operation', validateControlOperation operation = .ok () →
    validateControlOperation operation' = .ok () →
    encodeOperation operation = encodeOperation operation' → operation = operation'
  /-- A signed operation is accepted as it was signed. -/
  signed : ∀ operation key compact hash, signControlOperation scheme operation key = .ok (compact, hash) →
    verifyControlOperationSignature scheme json compact operation.kid (scheme.verifyingKey key) = .ok operation
  /-- It is presented with the hash that was returned to the signer. -/
  presented : ∀ operation key compact hash, signControlOperation scheme operation key = .ok (compact, hash) →
    ∃ presented, PresentedControlOperation.parse json compact = .ok presented ∧ presented.requestHash scheme = hash
      ∧ presented.verify scheme json operation.kid (scheme.verifyingKey key) = .ok operation
  /-- What is accepted is canonical. -/
  accepted : ∀ compact kid key operation, verifyControlOperationSignature scheme json compact kid key
    = .ok operation → CarriesCanonical compact operation
  /-- What is accepted in two steps is canonical. -/
  acceptedPresented : ∀ compact presented kid key operation, PresentedControlOperation.parse json compact
    = .ok presented → presented.verify scheme json kid key = .ok operation → CarriesCanonical compact operation

/-- **Operations have one canonical encoding.** -/
theorem operations_canonical (scheme : SignatureScheme) (json : JsonReader) : CanonicalEncoding scheme json where
  decoded := fun operation _ => decodeOperation_encodeOperation operation
  canonical := fun _ _ => canonical_eq_ok
  injective := fun operation operation' _ _ h => by
    have hdecode : decodeOperation json (encodeOperation operation) = .ok operation :=
      decodeOperation_encodeOperation operation
    rw [h, decodeOperation_encodeOperation operation'] at hdecode
    exact (Except.ok.inj hdecode).symm
  signed := fun _ _ _ _ h => by
    obtain ⟨presented, hparse, -, hverify⟩ := presented_of_sign h
    exact verifyControlOperationSignature_eq_ok.mpr ⟨presented, hparse, hverify⟩
  presented := fun _ _ _ _ h => presented_of_sign h
  accepted := fun _ _ _ _ h => by
    obtain ⟨presented, hparse, hverify⟩ := verifyControlOperationSignature_eq_ok.mp h
    exact canonical_of_verify hparse hverify
  acceptedPresented := fun _ _ _ _ _ hparse hverify => canonical_of_verify hparse hverify

/-- Parsing an operation and then verifying it, as admission does, and verifying it at once. -/
structure VerifiersAgree (scheme : SignatureScheme) (json : JsonReader) (compact : List Char)
    (kid : String) (key : scheme.VerifyingKey) : Prop where
  /-- Both accept the same, as the same operation. -/
  accepted : ∀ operation, (∃ presented, PresentedControlOperation.parse json compact = .ok presented
      ∧ presented.verify scheme json kid key = .ok operation)
    ↔ verifyControlOperationSignature scheme json compact kid key = .ok operation
  /-- The hash known before the key is that of the operation verified at once. -/
  requestHash : ∀ presented operation, PresentedControlOperation.parse json compact = .ok presented →
    verifyControlOperationSignature scheme json compact kid key = .ok operation → presented.operation = operation
      ∧ ∃ canonical, canonicalControlOperationBytes operation = .ok canonical
        ∧ presented.requestHash scheme = controlOperationRequestHash scheme canonical

/-- **The two verifiers of an operation agree.** -/
theorem verifiers_agree (scheme : SignatureScheme) (json : JsonReader) (compact : List Char)
    (kid : String) (key : scheme.VerifyingKey) : VerifiersAgree scheme json compact kid key where
  accepted := fun _ => verifyControlOperationSignature_eq_ok.symm
  requestHash := by
    intro presented operation hparse h
    -- what is parsed does not depend on the key, so it is what verification at once has parsed
    obtain ⟨presented', hparse', hverify⟩ := verifyControlOperationSignature_eq_ok.mp h
    obtain rfl : presented = presented' := Except.ok.inj (hparse.symm.trans hparse')
    obtain ⟨-, -, _, -, -, hcanonical, -⟩ := parse_eq_ok.mp hparse
    obtain ⟨-, -, -, -, rfl⟩ := verify_eq_ok.mp hverify
    exact ⟨rfl, presented.canonical, hcanonical, rfl⟩

/-! A run of the signer, with a scheme whose keys are bytes. -/

/-- Signatures repeat the key. -/
def byteScheme : SignatureScheme where
  SigningKey := UInt8
  VerifyingKey := UInt8
  verifyingKey := id
  toBytes := fun key => [key]
  sign := fun key _ => List.replicate 64 key
  verify := fun key _ signature => signature = List.replicate 64 key
  sha256 := fun bytes => List.replicate 32 (bytes.sum)
  length_sign := fun _ _ => List.length_replicate
  verify_sign := fun _ _ => decide_eq_true rfl

def byteKey : byteScheme.SigningKey := (7 : UInt8)

def migrateApply : ControlOperation :=
  ⟨3, "019c8ca2-30a6-7000-8000-000000000005", controllerKeyId byteScheme byteKey, "deployment-1",
    "config-revision-1", .migrateApply⟩

/-- A signed operation. -/
def signedMigrateApply : List Char × String :=
  match signControlOperation byteScheme migrateApply byteKey with
  | .ok signed => signed
  | .error _ => ([], "")

theorem operations_canonical_migrateApply :
    signControlOperation byteScheme migrateApply byteKey = .ok (signedMigrateApply.1, signedMigrateApply.2)
    ∧ verifyControlOperationSignature byteScheme compactReader signedMigrateApply.1 migrateApply.kid byteKey
    = .ok migrateApply := by
  have hsigned : signControlOperation byteScheme migrateApply byteKey
    = .ok (signedMigrateApply.1, signedMigrateApply.2) := by decide +kernel
  exact ⟨hsigned, (operations_canonical byteScheme compactReader).signed migrateApply byteKey _ _ hsigned⟩

end NazoAuth.OperatorProtocol
