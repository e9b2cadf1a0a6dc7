import Mathlib.Data.Finmap
import NazoAuth.DigitalCredentials

/-!
# SD-JWT — processing of disclosures

An issuer signs a payload with digests in the place of claims and array elements. The holder
presents some of the disclosures that the digests were taken from. Processing reads the disclosures
into a table under their digests and walks through the payload: each digest that it meets takes its
disclosure out of the table and puts the disclosed value in its place, and the walk goes on in that
value. A digest may be met once, and in the end the table is empty.

Objects are lists of members in the order of their names. The walk is bounded by a depth.
-/

namespace NazoAuth.SdJwt

open Lib DigitalCredentials

/-- The digest of a text, and the JSON codec. -/
structure Formats where
  sha256 : String → List UInt8
  serialize : Json → List UInt8
  parse : List UInt8 → Option Json

/-- The digest of an encoded disclosure, as it stands in a payload. -/
def digest (f : Formats) (encoded : String) : String := String.ofList (encode64 (f.sha256 encoded))

/-- A decoded disclosure: a claim with its name, or an array element. -/
structure Disclosure where
  name : Option String
  value : Json

/-- The names that mark digests. -/
def isMarker (name : String) : Bool := ["_sd", "...", "_sd_alg"].contains name

def parseDisclosure (f : Formats) (encoded : String) : Except CredentialTrustError Disclosure :=
  match (decode64? encoded.toList).bind f.parse with
  | some (.arr [.str _, value]) => .ok ⟨none, value⟩
  | some (.arr [.str _, .str name, value]) =>
    if isMarker name then .error .invalidEncoding else .ok ⟨some name, value⟩
  | _ => .error .invalidEncoding

/-- Disclosures under their digests. -/
abbrev DisclosureTable := Finmap fun _ : String => Disclosure

/-- One disclosure joins the table. -/
def addDisclosure (f : Formats) (t : DisclosureTable) (encoded : String) :
    Except CredentialTrustError DisclosureTable := do
  let d ← parseDisclosure f encoded
  if digest f encoded ∈ t then .error .invalidEncoding else .ok (t.insert (digest f encoded) d)

/-- The disclosures that are left, and the digests that were met. -/
structure Pending where
  disclosures : DisclosureTable
  seen : List String

/-- A digest is met: it takes its disclosure, if there is one. -/
def takeDisclosure (st : Pending) (digest : String) : Except CredentialTrustError (Option Disclosure × Pending) :=
  if st.seen.contains digest then .error .invalidEncoding
  else .ok (st.disclosures.lookup digest, ⟨st.disclosures.erase digest, digest :: st.seen⟩)

/-- A new member, in the order of names. -/
def insertMember (name : String) (value : Json) : List (String × Json) → List (String × Json)
  | [] => [(name, value)]
  | m :: rest => if name < m.1 then (name, value) :: m :: rest else m :: insertMember name value rest

def alwaysDisclosedVcClaim (name : String) : Bool :=
  ["iss", "nbf", "exp", "cnf", "vct", "vct#integrity", "aka_vcts", "status"].contains name

def hasMember (name : String) (members : List (String × Json)) : Bool := members.any fun m => m.1 = name

/-- One digest of an `_sd` array. -/
def discloseMember (root : Bool) (acc : List (String × Json) × Pending) (digest : Json) :
    Except CredentialTrustError (List (String × Json) × Pending) :=
  match digest with
  | .str digest => do
    let taken ← takeDisclosure acc.2 digest
    match taken.1 with
    | none => .ok (acc.1, taken.2)
    | some d =>
      match d.name with
      | none => .error .invalidEncoding
      | some name =>
        if root && alwaysDisclosedVcClaim name then .error .invalidEncoding
        else if hasMember name acc.1 then .error .invalidEncoding
        else .ok (insertMember name d.value acc.1, taken.2)
  | _ => .error .invalidEncoding

/-- The members of an object with those that its digests disclose. -/
def discloseMembers (root allowed : Bool) (members : List (String × Json)) (st : Pending) :
    Except CredentialTrustError (List (String × Json) × Pending) :=
  match (Json.obj members).get? "_sd" with
  | none => .ok (members, st)
  | some digests =>
    if !allowed then .error .invalidEncoding
    else match digests with
      | .arr digests => digests.foldlM (discloseMember root) (members.filter fun m => m.1 ≠ "_sd", st)
      | _ => .error .invalidEncoding

def memberCount : Json → Nat
  | .obj members => members.length
  | _ => 0

/-- An array element, or what its digest discloses; nothing when that is not disclosed. -/
def discloseItem (allowed : Bool) (item : Json) (st : Pending) :
    Except CredentialTrustError (Option Json × Pending) :=
  match item.get? "..." with
  | none => .ok (some item, st)
  | some digest =>
    if !allowed || memberCount item ≠ 1 then .error .invalidEncoding
    else match digest with
      | .str digest => do
        let taken ← takeDisclosure st digest
        match taken.1 with
        | none => .ok (none, taken.2)
        | some d => if d.name.isSome then .error .invalidEncoding else .ok (some d.value, taken.2)
      | _ => .error .invalidEncoding

/-- The loop over the members of an object. -/
def expandMembers (step : String → Json → Pending → Except CredentialTrustError (Json × Pending)) :
    List (String × Json) → Pending → Except CredentialTrustError (List (String × Json) × Pending)
  | [], st => .ok ([], st)
  | m :: rest, st => do
    let expanded ← step m.1 m.2 st
    let others ← expandMembers step rest expanded.2
    .ok ((m.1, expanded.1) :: others.1, others.2)

/-- The loop over the elements of an array. -/
def expandItems (allowed : Bool) (step : Json → Pending → Except CredentialTrustError (Json × Pending)) :
    List Json → Pending → Except CredentialTrustError (List Json × Pending)
  | [], st => .ok ([], st)
  | item :: rest, st => do
    let disclosed ← discloseItem allowed item st
    match disclosed.1 with
    | none => expandItems allowed step rest disclosed.2
    | some value =>
      let expanded ← step value disclosed.2
      let others ← expandItems allowed step rest expanded.2
      .ok (expanded.1 :: others.1, others.2)

/-- `expand_disclosures`; the first argument is the number of levels that the walk may still go
down. -/
def expandDisclosures : Nat → Bool → Bool → Json → Pending → Except CredentialTrustError (Json × Pending)
  | 0, _, _, _, _ => .error .invalidEncoding
  | levels + 1, root, allowed, .obj members, st => do
    if hasMember "..." members || hasMember "_sd_alg" members then .error .invalidEncoding
    else
      let disclosed ← discloseMembers root allowed members st
      let expanded ← expandMembers
        (fun name => expandDisclosures levels false (allowed && !(root && alwaysDisclosedVcClaim name)))
        disclosed.1 disclosed.2
      .ok (.obj expanded.1, expanded.2)
  | levels + 1, _, allowed, .arr items, st => do
    let expanded ← expandItems allowed (expandDisclosures levels false allowed) items st
    .ok (.arr expanded.1, expanded.2)
  | _ + 1, _, _, value, st => .ok (value, st)

/-- The depths from 0 to 128. -/
def maxLevels : Nat := 129

def processDisclosures (f : Formats) (payload : Json) (encoded : List String) :
    Except CredentialTrustError Json := do
  if !payload.isObject then .error .invalidEncoding
  else if (payload.get? "_sd_alg").any fun algorithm => algorithm ≠ .str "sha-256" then .error .invalidEncoding
  else
    let disclosures ← encoded.foldlM (addDisclosure f) ∅
    let expanded ← expandDisclosures maxLevels true true (payload.erase "_sd_alg") ⟨disclosures, []⟩
    if expanded.2.disclosures.keys ≠ ∅ then .error .invalidSignature else .ok expanded.1

end NazoAuth.SdJwt
