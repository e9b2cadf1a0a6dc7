import NazoAuth.SdJwt.Disclosures

/-!
# SD-JWT — signing

The issuer writes one disclosure for each subject claim, signs a payload with their digests and the
fixed claims, and hands out the JWT and all disclosures, separated by tildes. All parts are Base64
text, so that the parts of an issued credential can be told apart (`splitParts_issued`).
-/

namespace NazoAuth.SdJwt

open Lib DigitalCredentials

/-- The members of an object, none for any other value. -/
def membersOf : Json → List (String × Json)
  | .obj members => members
  | _ => []

/-- What is signed for one holder. The members of an object are in the order of their names. -/
structure CredentialPayload where
  issuer : String
  credentialType : String
  subjectClaims : Json
  /-- The public key of the holder. -/
  holderBinding : Option Json
  ordered : (membersOf subjectClaims).Pairwise fun m m' => m.1 < m'.1

structure CredentialSignInput where
  payload : CredentialPayload
  issuedAt : Instant
  expiresAt : Instant
  status : Option Json

/-- A signing key with its encoded header. Signing may fail. -/
structure SigningLease where
  header : List UInt8
  sign : List Char → Option (List UInt8)

variable (f : Formats)

def encodeJwt (lease : SigningLease) (claims : Json) : Option String :=
  let signingInput := encode64 lease.header ++ '.' :: encode64 (f.serialize claims)
  (lease.sign signingInput).map fun signature => String.ofList (signingInput ++ '.' :: encode64 signature)

variable (salt : String → List UInt8)

/-- What a disclosure says: the salt, the name and the value of a claim. -/
def claimContent (claim : String × Json) : Json :=
  .arr [.str (String.ofList (encode64 (salt claim.1))), .str claim.1, claim.2]

/-- The disclosure of a claim. -/
def claimText (claim : String × Json) : String :=
  String.ofList (encode64 (f.serialize (claimContent salt claim)))

variable (input : CredentialSignInput)

def subjectClaims : List (String × Json) := membersOf input.payload.subjectClaims

def issuedDisclosures : List String :=
  (subjectClaims input).map (claimText f salt)

/-- The claims that every presentation shows. -/
def fixedClaims : List (String × Json) :=
  Json.member "cnf" (input.payload.holderBinding.map fun jwk => .obj [("jwk", jwk)])
    ++ [("exp", .num (timestamp input.expiresAt)), ("iat", .num (timestamp input.issuedAt)),
      ("iss", .str input.payload.issuer), ("nbf", .num (timestamp input.issuedAt))]
    ++ Json.member "status" input.status ++ [("vct", .str input.payload.credentialType)]

/-- The payload that is signed. -/
def credential : Json :=
  .obj (("_sd", .arr ((issuedDisclosures f salt input).map fun text => .str (digest f text)))
    :: ("_sd_alg", .str "sha-256") :: fixedClaims input)

/-- The JWT, the disclosures and an end. -/
def issuedText (jwt : String) (disclosures : List String) : String :=
  String.ofList (jwt.toList ++ '~' :: (List.intercalate ['~'] (disclosures.map String.toList) ++ ['~']))

/-- `sign`. Each claim has a salt that is drawn for it. -/
def sign (lease : Option SigningLease) (salt : String → List UInt8) (input : CredentialSignInput) :
    Except CredentialTrustError String :=
  if !input.payload.subjectClaims.isObject then .error .invalidEncoding
  else match lease.bind fun lease => encodeJwt f lease (credential f salt input) with
    | none => .error .unavailable
    | some jwt => .ok (issuedText jwt (issuedDisclosures f salt input))

/-- The parts of a credential between tildes. -/
def splitParts (encoded : String) : List String := (encoded.toList.splitOn '~').map String.ofList

/-! ## Parts -/

theorem tilde_not_mem_encode64 (bytes : List UInt8) : '~' ∉ encode64 bytes := not_mem_encode64 (by decide) bytes

theorem tilde_not_mem_claimText (salt : String → List UInt8) (claim : String × Json) :
    '~' ∉ (claimText f salt claim).toList := by
  rw [claimText, String.toList_ofList]
  exact tilde_not_mem_encode64 _

theorem tilde_not_mem_jwt {f : Formats} {lease : SigningLease} {claims : Json} {jwt : String}
    (h : encodeJwt f lease claims = some jwt) : '~' ∉ jwt.toList := by
  obtain ⟨signature, -, rfl⟩ := Option.map_eq_some_iff.mp h
  have hheader := tilde_not_mem_encode64 lease.header
  have hclaims := tilde_not_mem_encode64 (f.serialize claims)
  have hsignature := tilde_not_mem_encode64 signature
  simp [hheader, hclaims, hsignature]

theorem intercalate_append_nil {α : Type} (x : α) {ls : List (List α)} (h : ls ≠ []) :
    [x].intercalate (ls ++ [[]]) = [x].intercalate ls ++ [x] := by
  induction ls with
  | nil => exact absurd rfl h
  | cons l rest ih =>
    cases rest with
    | nil => simp [List.intercalate]
    | cons l' rest =>
      have hrest := ih (List.cons_ne_nil l' rest)
      simp only [List.intercalate, List.cons_append, List.intersperse_cons_cons, List.flatten_cons] at hrest ⊢
      rw [hrest]
      simp

/-- **The parts of an issued credential**: the JWT, the disclosures and an empty part. Without
disclosures there is an empty part in their place. -/
theorem splitParts_issued {jwt : String} {disclosures : List String} (hjwt : '~' ∉ jwt.toList)
    (h : ∀ text ∈ disclosures, '~' ∉ text.toList) :
    splitParts (issuedText jwt disclosures) = jwt :: (if disclosures = [] then [""] else disclosures) ++ [""] := by
  have hparts : ∀ parts : List String, parts ≠ [] → (∀ text ∈ parts, '~' ∉ text.toList) →
      splitParts (issuedText jwt parts) = jwt :: parts ++ [""] := by
    intro parts hne hparts
    have hmap : parts.map String.toList ≠ [] := by simpa using hne
    have htext : jwt.toList ++ '~' :: (['~'].intercalate (parts.map String.toList) ++ ['~'])
        = ['~'].intercalate ((jwt :: parts ++ [""]).map String.toList) := by
      rw [← intercalate_append_nil '~' hmap]
      obtain ⟨part, rest, hcons⟩ := List.exists_cons_of_ne_nil hmap
      simp [hcons]
    have hno : ∀ l ∈ (jwt :: parts ++ [""]).map String.toList, '~' ∉ l := by
      intro l hl
      obtain ⟨text, htext, rfl⟩ := List.mem_map.mp hl
      rcases List.mem_append.mp htext with htext | htext
      · rcases List.mem_cons.mp htext with rfl | htext
        · exact hjwt
        · exact hparts text htext
      · rw [List.mem_singleton.mp htext]
        exact List.not_mem_nil
    rw [splitParts, issuedText, String.toList_ofList, htext, List.splitOn_intercalate '~' hno (by simp),
      List.map_map]
    simp [Function.comp_def]
  by_cases hnil : disclosures = []
  · subst hnil
    exact hparts [""] (by simp) (fun text htext => by rw [List.mem_singleton.mp htext]; exact List.not_mem_nil)
  · rw [if_neg hnil]
    exact hparts disclosures hnil h

end NazoAuth.SdJwt
