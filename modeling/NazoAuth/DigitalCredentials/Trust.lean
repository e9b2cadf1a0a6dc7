import NazoAuth.DigitalCredentials

/-!
# Digital credentials — revocation of certificates

An operator publishes snapshots of certificate states; a verifier looks the certificates of a chain
up in an index of the snapshot in force. An entry is scoped to an issuer: a lookup that names an
issuer sees the entry of that issuer, one that names none sees what all entries of the certificate
agree on.
-/

namespace NazoAuth.DigitalCredentials

open Lib

inductive CertificateRevocationStatus where
  | good
  | revoked
  deriving DecidableEq

structure CertificateRevocationEntry where
  issuer : String
  certificate : String
  status : CertificateRevocationStatus

structure CertificateRevocationSnapshot where
  version : Nat
  thisUpdate : Instant
  nextUpdate : Instant
  entries : List CertificateRevocationEntry

inductive CertificateRevocationSnapshotError where
  | unsupportedVersion | invalidUpdateInterval | notYetValid | expired | invalidEntry | duplicateEntry
  deriving DecidableEq

def certificateIdentity (sha256 : List UInt8 → List UInt8) (certificateDer : List UInt8) : String :=
  "sha256:" ++ String.ofList (encode64 (sha256 certificateDer))

def validCertificateIdentity (value : String) : Bool :=
  "sha256:".toList.isPrefixOf value.toList && (decode64? (value.toList.drop 7)).any (·.length = 32)

def invalidEntry (entry : CertificateRevocationEntry) : Bool :=
  entry.issuer.isEmpty || entry.issuer.utf8ByteSize > 2048 || !validCertificateIdentity entry.certificate

/-- The loop of `validate_structure`, with the pairs that it has seen. -/
def validateEntries (seen : List (String × String)) :
    List CertificateRevocationEntry → Except CertificateRevocationSnapshotError Unit
  | [] => .ok ()
  | entry :: rest =>
    if invalidEntry entry then .error .invalidEntry
    else if (entry.issuer, entry.certificate) ∈ seen then .error .duplicateEntry
    else validateEntries ((entry.issuer, entry.certificate) :: seen) rest

def CertificateRevocationSnapshot.validateStructure (snapshot : CertificateRevocationSnapshot) :
    Except CertificateRevocationSnapshotError Unit :=
  if snapshot.version ≠ 1 then .error .unsupportedVersion
  else if snapshot.nextUpdate ≤ snapshot.thisUpdate then .error .invalidUpdateInterval
  else validateEntries [] snapshot.entries

structure IndexedCertificateStatuses where
  byIssuer : String → Option CertificateRevocationStatus
  unscoped : Option CertificateRevocationStatus

abbrev StatusIndex := String → Option IndexedCertificateStatuses

def indexEntry (statuses : StatusIndex) (entry : CertificateRevocationEntry) : StatusIndex :=
  let certificate := (statuses entry.certificate).getD ⟨fun _ => none, some entry.status⟩
  Function.update statuses entry.certificate (some
    ⟨Function.update certificate.byIssuer entry.issuer (some entry.status),
      if certificate.unscoped ≠ some entry.status then none else certificate.unscoped⟩)

structure PreparedCertificateRevocationSnapshot where
  snapshot : CertificateRevocationSnapshot
  statuses : Except CertificateRevocationSnapshotError StatusIndex

def prepare (snapshot : CertificateRevocationSnapshot) : PreparedCertificateRevocationSnapshot :=
  ⟨snapshot, snapshot.validateStructure.map fun _ => snapshot.entries.foldl indexEntry fun _ => none⟩

namespace PreparedCertificateRevocationSnapshot

def validateFreshnessAt (p : PreparedCertificateRevocationSnapshot) (now : Instant) :
    Except CertificateRevocationSnapshotError Unit :=
  match p.statuses with
  | .error error => .error error
  | .ok _ =>
    if now < p.snapshot.thisUpdate then .error .notYetValid
    else if p.snapshot.nextUpdate ≤ now then .error .expired
    else .ok ()

def statusFor (p : PreparedCertificateRevocationSnapshot) (issuer : Option String)
    (certificate : String) : Option CertificateRevocationStatus :=
  match p.statuses with
  | .error _ => none
  | .ok statuses => (statuses certificate).bind fun status =>
    match issuer with
    | some issuer => status.byIssuer issuer
    | none => status.unscoped

end PreparedCertificateRevocationSnapshot

inductive CertificateRevocationMode where
  | disabled
  | optional
  | required
  deriving DecidableEq

structure CertificateRevocationPolicy where
  mode : CertificateRevocationMode
  snapshot : Option PreparedCertificateRevocationSnapshot

def replaceSnapshot (policy : CertificateRevocationPolicy) (snapshot : CertificateRevocationSnapshot)
    (now : Instant) : CertificateRevocationPolicy × Except CertificateRevocationSnapshotError Unit :=
  match (prepare snapshot).validateFreshnessAt now with
  | .error error => (policy, .error error)
  | .ok () => ({ policy with snapshot := some (prepare snapshot) }, .ok ())

/-- `check_chain_inner`. -/
def checkChain (sha256 : List UInt8 → List UInt8) (policy : CertificateRevocationPolicy) (issuer : Option String)
    (certificates : List (List UInt8)) (now : Instant) (scopedAnchorAuthenticated : Bool) :
    Except CredentialTrustError Unit :=
  if policy.mode = .disabled then .ok ()
  else
    match policy.snapshot with
    | none => if policy.mode = .required then .error .revocationSnapshotUnavailable else .ok ()
    | some snapshot =>
      match snapshot.validateFreshnessAt now with
      | .error .notYetValid | .error .expired => .error .revocationSnapshotStale
      | .error _ => .error .revocationSnapshotUnavailable
      | .ok () => certificates.forM fun certificate =>
        match snapshot.statusFor issuer (certificateIdentity sha256 certificate) with
        | some .revoked => .error .revokedCertificate
        | some .good => .ok ()
        | none =>
          if policy.mode = .required && !scopedAnchorAuthenticated then .error .revocationStatusUnknown else .ok ()

/-! ## The index -/

variable {entries : List CertificateRevocationEntry} {snapshot : CertificateRevocationSnapshot}

/-- What a scan of the entries finds. -/
def Finds (entries : List CertificateRevocationEntry) (certificate : String)
    (status : CertificateRevocationStatus) : Option String → Prop
  | some issuer => ∃ e ∈ entries, e.certificate = certificate ∧ e.issuer = issuer ∧ e.status = status
  | none => (∃ e ∈ entries, e.certificate = certificate)
    ∧ ∀ e ∈ entries, e.certificate = certificate → e.status = status

def Distinct (entries : List CertificateRevocationEntry) : Prop :=
  (entries.map fun e => (e.issuer, e.certificate)).Nodup

theorem validateEntries_eq_ok {seen : List (String × String)} : validateEntries seen entries = .ok ()
      ↔ (∀ e ∈ entries, invalidEntry e = false ∧ (e.issuer, e.certificate) ∉ seen) ∧ Distinct entries := by
  induction entries generalizing seen with
  | nil => simp [validateEntries, Distinct]
  | cons entry rest ih =>
    simp only [validateEntries, Distinct, List.mem_cons] at ih ⊢
    grind

theorem validateStructure_eq_ok : snapshot.validateStructure = .ok ()
    ↔ snapshot.version = 1 ∧ snapshot.thisUpdate < snapshot.nextUpdate
      ∧ (∀ e ∈ snapshot.entries, invalidEntry e = false) ∧ Distinct snapshot.entries := by
  unfold CertificateRevocationSnapshot.validateStructure
  split_ifs with hversion hinterval
  · simp [hversion]
  · simp [not_lt.mpr hinterval]
  · simp [validateEntries_eq_ok, not_not.mp hversion, not_le.mp hinterval]

/-- What the index holds of the entries that it was made from. -/
def Indexed (entries : List CertificateRevocationEntry) (statuses : StatusIndex) : Prop :=
  ∀ certificate,
    match statuses certificate with
    | none => ∀ e ∈ entries, e.certificate ≠ certificate
    | some c => (∃ e ∈ entries, e.certificate = certificate)
        ∧ (∀ issuer status, c.byIssuer issuer = some status ↔ Finds entries certificate status (some issuer))
        ∧ ∀ status, c.unscoped = some status ↔ Finds entries certificate status none

theorem indexed_indexEntry {statuses : StatusIndex} {e : CertificateRevocationEntry}
    (h : Indexed entries statuses)
    (hnew : (e.issuer, e.certificate) ∉ entries.map fun e => (e.issuer, e.certificate)) :
    Indexed (entries ++ [e]) (indexEntry statuses e) := by
  intro certificate
  have hold := h certificate
  by_cases hcertificate : certificate = e.certificate
  · subst hcertificate
    simp only [indexEntry, Function.update_self]
    cases hstatuses : statuses e.certificate with
    | none | some c =>
      refine ⟨⟨e, by simp, rfl⟩, fun issuer status => ?_, fun status => ?_⟩
      · -- the pair is new, so that the entry of no other issuer is overwritten
        simp only [Finds, Function.update_apply]
        grind [Finds]
      · simp only [Finds]
        grind [Finds]
  · simp only [indexEntry, Function.update_of_ne hcertificate]
    cases hstatuses : statuses certificate with
    | none | some c => grind [Finds]

theorem indexed_of_distinct (h : Distinct entries) : Indexed entries (entries.foldl indexEntry fun _ => none) := by
  induction entries using List.reverseRecOn with
  | nil => exact fun _ => nofun
  | append_singleton entries e ih =>
    unfold Distinct at h
    rw [List.map_append, List.nodup_append] at h
    rw [List.foldl_append]
    exact indexed_indexEntry (ih h.1) fun hmem => h.2.2 _ hmem _ (List.mem_singleton_self _) rfl

/-- **The index agrees with a scan** of the entries, whatever their order is. -/
theorem statusFor_eq_some (h : snapshot.validateStructure = .ok ()) {issuer : Option String}
    {certificate : String} {status : CertificateRevocationStatus} :
    (prepare snapshot).statusFor issuer certificate = some status
      ↔ Finds snapshot.entries certificate status issuer := by
  have hindexed := indexed_of_distinct (validateStructure_eq_ok.mp h).2.2.2 certificate
  simp only [PreparedCertificateRevocationSnapshot.statusFor, prepare, Except.map]
  cases hstatuses : snapshot.entries.foldl indexEntry (fun _ => none) certificate with
  | none | some c =>
    cases issuer with
    | none | some issuer => grind [Finds]

/-- The order of the entries does not matter. -/
theorem statusFor_perm (h : snapshot.validateStructure = .ok ())
    (hperm : entries.Perm snapshot.entries) (issuer : Option String) (certificate : String) :
    (prepare { snapshot with entries := entries }).statusFor issuer certificate
    = (prepare snapshot).statusFor issuer certificate := by
  obtain ⟨hversion, hinterval, hentries, hdistinct⟩ := validateStructure_eq_ok.mp h
  have h' : { snapshot with entries := entries }.validateStructure = .ok () :=
    validateStructure_eq_ok.mpr ⟨hversion, hinterval, fun e he => hentries e (hperm.mem_iff.mp he),
      (hperm.map _).nodup_iff.mpr hdistinct⟩
  ext status
  rw [statusFor_eq_some h', statusFor_eq_some h]
  cases issuer with
  | none | some issuer => simp only [Finds, hperm.mem_iff]

/-! ## Chains -/

/-- What holds of a snapshot that passes structural validation. -/
structure RevocationExact (sha256 : List UInt8 → List UInt8)
    (snapshot : CertificateRevocationSnapshot) : Prop where
  /-- A chain with a revoked certificate fails while the snapshot is in force: under the issuer of the entry;
  without an issuer, if all entries of the certificate are revoked; and where a status is needed, if the entries do
  not say good. -/
  revoked : ∀ (policy : CertificateRevocationPolicy) (issuer : Option String) (certificates : List
    (List UInt8)) (now : Instant)
    (anchored : Bool), policy.snapshot = some (prepare snapshot) → policy.mode ≠ .disabled → ∀ der ∈ certificates,
    ∀ e ∈ snapshot.entries, e.certificate = certificateIdentity sha256 der → e.status = .revoked →
    (issuer = some e.issuer ∨ (issuer = none ∧ ∀ e' ∈ snapshot.entries, e'.certificate = e.certificate →
      e'.status = .revoked)
      ∨ (policy.mode = .required ∧ anchored = false ∧ ¬Finds snapshot.entries e.certificate .good issuer)) →
    checkChain sha256 policy issuer certificates now anchored ≠ .ok ()
  /-- The index agrees with a scan of the entries. -/
  scanned : ∀ issuer certificate status, (prepare snapshot).statusFor issuer certificate = some status
    ↔ Finds snapshot.entries certificate status issuer
  unordered : ∀ entries, entries.Perm snapshot.entries → ∀ issuer certificate,
    (prepare { snapshot with entries := entries }).statusFor issuer certificate
    = (prepare snapshot).statusFor issuer certificate
  /-- A replacement that is rejected leaves the snapshot. -/
  replaced : ∀ (policy policy' : CertificateRevocationPolicy) (replacement :
    CertificateRevocationSnapshot) (now : Instant)
    (error : CertificateRevocationSnapshotError), replaceSnapshot policy replacement now = (policy', .error error)
    → policy' = policy

/-- **A revoked certificate is not accepted** where its entry is looked up. -/
theorem revocation_exact (sha256 : List UInt8 → List UInt8)
    (h : snapshot.validateStructure = .ok ()) : RevocationExact sha256 snapshot := by
  refine ⟨?_, fun _ _ _ => statusFor_eq_some h, fun _ hperm => statusFor_perm h hperm, ?_⟩
  · intro policy issuer certificates now anchored hsnapshot henabled der hder e he hcertificate hstatus hlooked hok
    simp only [checkChain, if_neg henabled, hsnapshot] at hok
    split at hok
    · cases hok
    · cases hok
    · cases hok
    have hcheck := forM_eq_ok hok der hder
    rcases hlooked with rfl | ⟨rfl, hall⟩ | ⟨hrequired, rfl, hgood⟩
    · rw [(statusFor_eq_some h).mpr (show Finds _ _ _ (some _) from ⟨e, he, hcertificate, rfl, hstatus⟩)] at hcheck
      cases hcheck
    · rw [(statusFor_eq_some h).mpr (show Finds _ _ _ none from
        ⟨⟨e, he, hcertificate⟩, fun e' he' h' => hall e' he' (h'.trans hcertificate.symm)⟩)] at hcheck
      cases hcheck
    · split at hcheck
      · cases hcheck
      · rename_i hfound
        exact hgood (hcertificate ▸ (statusFor_eq_some h).mp hfound)
      · simp [hrequired] at hcheck
  · intro policy policy' replacement now error hreplace
    unfold replaceSnapshot at hreplace
    split at hreplace
    · cases hreplace
      rfl
    · cases hreplace

/-- One issuer knows the certificate as good, another one has revoked it. -/
def disputed : CertificateRevocationSnapshot :=
  let certificate := certificateIdentity (fun _ => List.replicate 32 0) []
  ⟨1, 10, 20, [⟨"https://a.example", certificate, .good⟩, ⟨"https://b.example", certificate, .revoked⟩]⟩

theorem revocation_exact_disputed : disputed.validateStructure = .ok ()
      ∧ RevocationExact (fun _ => List.replicate 32 0) disputed := by
  have hvalid : disputed.validateStructure = .ok () := by decide +kernel
  exact ⟨hvalid, revocation_exact _ hvalid⟩

/-- The chain is accepted under the first issuer, and without an issuer if a status is not
needed. -/
theorem disputed_accepted : disputed.validateStructure = .ok () ∧ (∃ e ∈ disputed.entries,
      e.certificate = certificateIdentity (fun _ => List.replicate 32 0) [] ∧ e.status = .revoked)
    ∧ checkChain (fun _ => List.replicate 32 0) ⟨.required, some (prepare disputed)⟩ (some "https://a.example")
    [[]] 15 false = .ok ()
    ∧ checkChain (fun _ => List.replicate 32 0) ⟨.optional, some (prepare disputed)⟩ none [[]] 15 false
    = .ok () := by
  decide +kernel

end NazoAuth.DigitalCredentials
