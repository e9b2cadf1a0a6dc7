import NazoAuth.Basic

/-!
# Operator protocol — errors and checks of texts
-/

namespace NazoAuth.Operator

inductive ProtocolError where
  | tooLarge
  | segmentCount
  | base64
  | json
  | header
  | signature
  | policy (text : String)
  deriving DecidableEq

def ProtocolError.text : ProtocolError → String
  | .tooLarge => "compact JWS exceeds the maximum size"
  | .segmentCount => "compact JWS must contain exactly three segments"
  | .base64 => "compact JWS contains invalid base64url"
  | .json => "compact JWS contains invalid JSON"
  | .header => "compact JWS uses an invalid protected header"
  | .signature => "compact JWS signature is invalid"
  | .policy text => "protocol policy violation: " ++ text

def isLowerHex (c : Char) : Bool := c.isDigit || ('a' ≤ c && c ≤ 'f')

def validateUuid (value : String) : Except ProtocolError Unit :=
  if value.length = 36
      && value.toList.zipIdx.all fun p => if [8, 13, 18, 23].contains p.2 then p.1 = '-'
      else isLowerHex p.1 then .ok ()
  else .error (.policy "invalid UUID")

/-- A canonical identifier of version 7, in the field `field`. -/
def validateVersion7 (field value : String) : Except ProtocolError Unit := do
  validateUuid value
  if value.toList[14]? ≠ some '7' then .error (.policy (field ++ " must be a UUIDv7"))
  else if !(value.toList[19]?.any fun c => ['8', '9', 'a', 'b'].contains c) then
    .error (.policy (field ++ " must use the RFC 9562 variant"))
  else .ok ()

def validateUuidv7 : String → Except ProtocolError Unit := validateVersion7 "operation_id"

def validateControllerId : String → Except ProtocolError Unit := validateVersion7 "controller_id"

def validateLowerHex (value : String) (length : Nat) : Except ProtocolError Unit :=
  if value.length = length && value.toList.all isLowerHex then .ok () else .error (.policy "invalid digest")

/-- Letters, digits and the characters of `others`, at most `limit` of them; `message` says what is
wrong. -/
def validateCharacters (others : String) (limit : Nat) (message value : String) : Except ProtocolError Unit :=
  if value.isEmpty || limit < value.utf8ByteSize
      || !value.toList.all (fun c => c.isAlphanum || others.toList.contains c) then
    .error (.policy message)
  else .ok ()

def validateIdentifier : String → Except ProtocolError Unit :=
  validateCharacters ".:_/@+-" 256 "invalid identifier"

def validateFileIdentifier : String → Except ProtocolError Unit :=
  validateCharacters ".:_+-" 128 "invalid file identifier"

end NazoAuth.Operator
