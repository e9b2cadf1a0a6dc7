import NazoAuth.Refresh.Request
import NazoAuth.Revocation.Verifier

/-!
# The token endpoint — sender constraints

The proofs of possession that a token request presents, the policy of the client, and the binding of
the access token that results. The verification of a DPoP proof and the certificate of the
connection are facts of the request.
-/

namespace NazoAuth.Token

open Lib
open Revocation (ConfirmationClaims)

inductive SenderConstraintPolicy
  | bearerAllowed
  | dpopRequired
  | mtlsRequired
  | dpopOrMtls

def senderConstraintPolicy (requireDpopBoundTokens requireMtlsBoundTokens : Bool) : SenderConstraintPolicy :=
  match requireDpopBoundTokens, requireMtlsBoundTokens with
  | false, false => .bearerAllowed
  | true, false => .dpopRequired
  | false, true => .mtlsRequired
  | true, true => .dpopOrMtls

/-- The thumbprints that a request has proven. -/
structure PresentedSenderConstraint where
  dpopJkt : Option String
  mtlsX5tS256 : Option String

inductive AppliedSenderConstraint
  | bearer
  | dpop (jkt : String)
  | mutualTls (thumbprint : String)

/-- The policy accepts the constraint. -/
def SenderConstraintPolicy.allows : SenderConstraintPolicy → AppliedSenderConstraint → Bool
  | .bearerAllowed, _ => true
  | .dpopRequired, .dpop _ => true
  | .mtlsRequired, .mutualTls _ => true
  | .dpopOrMtls, .dpop _ => true
  | .dpopOrMtls, .mutualTls _ => true
  | _, _ => false

/-- The constraint that a request gets, or nothing: two proofs at once, or one that the policy
refuses. -/
def applySenderConstraint (policy : SenderConstraintPolicy)
    (presented : PresentedSenderConstraint) : Option AppliedSenderConstraint :=
  let constraint : Option AppliedSenderConstraint := match presented.dpopJkt, presented.mtlsX5tS256 with
    | some _, some _ => none
    | some thumbprint, none => some (.dpop thumbprint)
    | none, some thumbprint => some (.mutualTls thumbprint)
    | none, none => some .bearer
  constraint.filter policy.allows

inductive DpopError
  | missingProof
  | malformedProof
  | invalidProof
  | replayDetected (jtiHash : String) (keyId : String)
  | bindingMismatch
  | tokenNotBound
  | useNonce (nonce : String)
  | stateStoreUnavailable

inductive SenderConstraintValidationError
  | dpop (error : DpopError)
  | missingMtls
  | multiple

/-- The sender proofs of a request. -/
structure SenderFacts where
  /-- The key of the DPoP proof, for the token that it has to name and the key that is expected. -/
  dpopProof : (tokenForAth expectedJkt : Option String) → Except DpopError (Option String)
  certificateThumbprint : Option String

/-- The certificate of the request as a sender constraint: looked at only where mTLS is expected or
required. -/
def mtlsConstraint (requireMtlsBoundTokens : Bool) (certificate expected : Option String) :
    Except SenderConstraintValidationError (Option String) :=
  let presented := if expected.isSome || requireMtlsBoundTokens then certificate else none
  match expected with
  | none => .ok presented
  | some expected => if presented = some expected then .ok presented else .error .missingMtls

def validateTokenSenderConstraints (facts : SenderFacts) (requireDpopBoundTokens requireMtlsBoundTokens : Bool)
    (tokenForAth expectedDpopJkt expectedMtlsX5tS256 : Option String) :
    Except SenderConstraintValidationError PresentedSenderConstraint := do
  let dpopJkt ← (facts.dpopProof tokenForAth expectedDpopJkt).mapError .dpop
  let mtlsX5tS256 ← mtlsConstraint requireMtlsBoundTokens facts.certificateThumbprint expectedMtlsX5tS256
  let presented : PresentedSenderConstraint := ⟨dpopJkt, mtlsX5tS256⟩
  match applySenderConstraint (senderConstraintPolicy requireDpopBoundTokens requireMtlsBoundTokens) presented with
  | some _ => .ok presented
  | none =>
    if dpopJkt.isSome && mtlsX5tS256.isSome then .error .multiple
    else if requireDpopBoundTokens && !requireMtlsBoundTokens then .error (.dpop .missingProof)
    else .error .missingMtls

/-- The confirmation claim of a token. -/
def AppliedSenderConstraint.confirmation : AppliedSenderConstraint → Option ConfirmationClaims
  | .bearer => none
  | .dpop jkt => some ⟨some jkt, none⟩
  | .mutualTls thumbprint => some ⟨none, some thumbprint⟩

/-- The confirmation of the access token that is signed for an issue; two constraints are
refused. -/
def issuedConfirmation (dpopJkt mtlsX5tS256 : Option String) : Option (Option ConfirmationClaims) :=
  (applySenderConstraint .bearerAllowed ⟨dpopJkt, mtlsX5tS256⟩).map AppliedSenderConstraint.confirmation

end NazoAuth.Token
