import NazoAuth.SdJwt.Exact
import NazoAuth.SdJwt.Signing

/-!
# SD-JWT — what is issued can be presented

A holder presents some of the disclosures of an issued credential. Processing meets the digest of
each, in the order of the claims: a presented claim is put in, another one is passed over
(`discloseClaims_ok`). The values have no digests in them, so that the walk leaves them as they are
(`expandDisclosures_plain`).
-/

namespace NazoAuth.SdJwt

open Lib DigitalCredentials

/-! ## Values without digests -/

section Plain

variable {st : Pending}

/-- The value has no markers and is not too deep for a claim. -/
structure Plain (v : Json) : Prop where
  unmarked : Unmarked v
  shallow : v.Shallow 128

variable {members : List (String × Json)} {name : String}

theorem Unmarked.names (h : Unmarked (.obj members)) : ∀ m ∈ members, isMarker m.1 = false := by
  cases h with
  | intro hself => exact hself members rfl

theorem Unmarked.child {v c : Json} (h : Unmarked v) (hc : c ∈ v.children) : Unmarked c := by
  cases h with
  | intro _ hchildren => exact hchildren c hc

theorem hasMember_eq_false : hasMember name members = false ↔ ∀ m ∈ members, m.1 ≠ name := by
  simp [hasMember]

theorem get?_eq_none (h : ∀ m ∈ members, m.1 ≠ name) : (Json.obj members).get? name = none := by
  rw [Json.get?, List.find?_eq_none.mpr (by simpa using h), Option.map_none]

theorem ne_of_isMarker {marker : String} (h : isMarker name = false)
    (hmarker : isMarker marker = true) : name ≠ marker := by
  rintro rfl
  rw [h] at hmarker
  cases hmarker

theorem expandMembers_ok {step : String → Json → Pending → Except CredentialTrustError (Json × Pending)}
    (h : ∀ m ∈ members, step m.1 m.2 st = .ok (m.2, st)) :
    expandMembers step members st = .ok (members, st) := by
  induction members with
  | nil => rfl
  | cons m rest ih =>
    have hrest := ih fun m' hm' => h m' (.tail m hm')
    simp only [expandMembers, h m List.mem_cons_self, hrest, bind, Except.bind]

theorem expandItems_ok {allowed : Bool} {step : Json → Pending → Except CredentialTrustError (Json × Pending)}
    {items : List Json} (hitem : ∀ v ∈ items, v.get? "..." = none) (h : ∀ v ∈ items, step v st = .ok (v, st)) :
    expandItems allowed step items st = .ok (items, st) := by
  induction items with
  | nil => rfl
  | cons v rest ih =>
    have hrest := ih (fun v' hv' => hitem v' (.tail v hv')) fun v' hv' => h v' (.tail v hv')
    have hself : discloseItem allowed v st = .ok (some v, st) := by
      rw [discloseItem, hitem v List.mem_cons_self]
    simp only [expandItems, hself, h v List.mem_cons_self, hrest, bind, Except.bind]

theorem expandDisclosures_plain (allowed : Bool) (levels : Nat) : ∀ {v : Json}, Unmarked v →
    v.Shallow levels → expandDisclosures levels false allowed v st = .ok (v, st) := by
  induction levels generalizing allowed with
  | zero => exact fun _ hshallow => hshallow.elim
  | succ levels ih =>
    intro v hv hshallow
    cases v with
    | obj members =>
      have hnames : ∀ marker, isMarker marker = true → ∀ m ∈ members, m.1 ≠ marker :=
        fun marker hmarker m hm => ne_of_isMarker (hv.names m hm) hmarker
      have hdisclose : discloseMembers false allowed members st = .ok (members, st) := by
        rw [discloseMembers, get?_eq_none (hnames "_sd" rfl)]
      have hmembers : ∀ m ∈ members, ∀ allowed, expandDisclosures levels false allowed m.2 st = .ok (m.2, st) := by
        intro m hm allowed
        have hchild : m.2 ∈ (Json.obj members).children := List.mem_map_of_mem hm
        exact ih allowed (hv.child hchild) (hshallow m.2 hchild)
      simp only [expandDisclosures, hasMember_eq_false.mpr (hnames "..." rfl),
        hasMember_eq_false.mpr (hnames "_sd_alg" rfl),
        Bool.or_self, Bool.false_eq_true, if_false, hdisclose, bind, Except.bind]
      rw [expandMembers_ok fun m hm => hmembers m hm _]
    | arr items =>
      have hitem : ∀ u ∈ items, u.get? "..." = none := by
        intro u hu
        cases u with
        | obj => exact get?_eq_none fun m hm => ne_of_isMarker ((hv.child hu).names m hm) rfl
        | null | bool _ | num _ | real _ _ | str _ | arr _ => rfl
      have hitems : ∀ u ∈ items, expandDisclosures levels false allowed u st = .ok (u, st) :=
        fun u hu => ih allowed (hv.child hu) (hshallow u hu)
      simp only [expandDisclosures, expandItems_ok hitem hitems, bind, Except.bind]
    | null | bool _ | num _ | real _ _ | str _ => rfl

end Plain

/-! ## New members -/

section Members

variable {name : String} {value : Json} {members : List (String × Json)}

theorem perm_insertMember (name : String) (value : Json) (members : List (String × Json)) :
    (insertMember name value members).Perm ((name, value) :: members) := by
  induction members with
  | nil => exact .refl _
  | cons m rest ih =>
    unfold insertMember
    split_ifs
    · exact .refl _
    · exact (ih.cons m).trans (.swap (name, value) m rest)

theorem ordered_insertMember (h : members.Pairwise fun m m' => m.1 < m'.1) (hnew : ∀ m ∈ members, m.1 ≠ name) :
    (insertMember name value members).Pairwise fun m m' => m.1 < m'.1 := by
  induction members with
  | nil => exact List.pairwise_singleton _ _
  | cons m rest ih =>
    obtain ⟨hhead, htail⟩ := List.pairwise_cons.mp h
    unfold insertMember
    split_ifs with hlt
    · refine List.pairwise_cons.mpr ⟨fun m' hm' => ?_, h⟩
      rcases List.mem_cons.mp hm' with rfl | hm'
      · exact hlt
      · exact String.lt_trans hlt (hhead m' hm')
    · refine List.pairwise_cons.mpr ⟨fun m' hm' => ?_, ih htail fun m' hm' => hnew m' (.tail m hm')⟩
      rcases mem_insertMember.mp hm' with rfl | hm'
      · exact Std.lt_of_le_of_ne (String.not_lt.mp hlt) (hnew m (.head _))
      · exact hhead m' hm'

end Members

/-! ## The digests of the claims -/

section Present

variable {f : Formats} {lease : Option SigningLease} {salt : String → List UInt8} {input : CredentialSignInput}

/-- What a claim must be for its disclosure to be presented. -/
structure Presentable (f : Formats) (salt : String → List UInt8) (claim : String × Json) : Prop where
  marker : isMarker claim.1 = false
  unprotected : alwaysDisclosedVcClaim claim.1 = false
  fixed : claim.1 ≠ "iat"
  plain : Plain claim.2
  readable : f.parse (f.serialize (claimContent salt claim)) = some (claimContent salt claim)

theorem parseDisclosure_claimText {claim : String × Json} (h : Presentable f salt claim) :
    parseDisclosure f (claimText f salt claim) = .ok ⟨some claim.1, claim.2⟩ := by
  rw [parseDisclosure, claimText, String.toList_ofList, decode64?_encode64, Option.bind_some, h.readable]
  simp only [claimContent]
  rw [if_neg (by rw [h.marker]; exact Bool.false_ne_true)]

def chosenClaims (f : Formats) (salt : String → List UInt8) (presented : List String)
    (claims : List (String × Json)) :
    List (String × Json) := claims.filter fun claim => claimText f salt claim ∈ presented

section Disclose

variable {d : String × Json → String} {c : String × Json → Bool} {members : List (String × Json)} {s : Pending}

/-- The digest of a claim: the claim joins the members if its disclosure is there. -/
theorem discloseClaim_ok {m : String × Json} (hmembers : members.Pairwise fun m m' => m.1 < m'.1)
    (hnew : c m → alwaysDisclosedVcClaim m.1 = false ∧ ∀ m' ∈ members, m'.1 ≠ m.1) (hseen : d m ∉ s.seen)
    (hlookup : s.disclosures.lookup (d m) = if c m then some ⟨some m.1, m.2⟩ else none) :
    ∃ members', discloseMember true (members, s) (.str (d m))
    = .ok (members', ⟨s.disclosures.erase (d m), d m :: s.seen⟩)
      ∧ members'.Perm (members ++ [m].filter c) ∧ members'.Pairwise fun m m' => m.1 < m'.1 := by
  have htake := takeDisclosure.eq_1 s (d m)
  rw [if_neg (by simpa using hseen), hlookup] at htake
  by_cases hm : c m
  · obtain ⟨hunprotected, habsent⟩ := hnew hm
    refine ⟨insertMember m.1 m.2 members, ?_, ?_, ordered_insertMember hmembers habsent⟩
    · simp only [discloseMember, htake, if_pos hm, bind, Except.bind, hunprotected, Bool.and_false,
        Bool.false_eq_true, if_false, hasMember_eq_false.mpr habsent]
    · rw [List.filter_cons_of_pos hm]
      exact (perm_insertMember m.1 m.2 members).trans (List.perm_append_singleton m members).symm
  · refine ⟨members, ?_, ?_, hmembers⟩
    · simp only [discloseMember, htake, if_neg hm, bind, Except.bind]
    · rw [List.filter_cons_of_neg hm, List.filter_nil, List.append_nil]

/-- The digests of the claims, in turn. -/
theorem discloseClaims_ok {claims : List (String × Json)} (hordered : claims.Pairwise fun m m' => m.1 < m'.1)
    (hdistinct : (claims.map d).Nodup) (hmembers : members.Pairwise fun m m' => m.1 < m'.1)
    (hnew : ∀ m ∈ claims, c m → alwaysDisclosedVcClaim m.1 = false ∧ ∀ m' ∈ members, m'.1 ≠ m.1)
    (hseen : ∀ m ∈ claims, d m ∉ s.seen)
    (hlookup : ∀ m ∈ claims, s.disclosures.lookup (d m) = if c m then some ⟨some m.1, m.2⟩ else none) :
    ∃ members' s', (claims.map fun m => Json.str (d m)).foldlM (discloseMember true) (members, s) = .ok
      (members', s') ∧ members'.Perm (members ++ claims.filter c) ∧ members'.Pairwise (fun m m' => m.1 < m'.1)
      ∧ ∀ x, s'.disclosures.lookup x = if x ∈ claims.map d then none else s.disclosures.lookup x := by
  induction claims generalizing members s with
  | nil => exact ⟨members, s, rfl, by simp, hmembers, fun x => by simp⟩
  | cons m rest ih =>
    obtain ⟨hhead, htail⟩ := List.pairwise_cons.mp hordered
    obtain ⟨hfresh, hnodup⟩ := List.nodup_cons.mp hdistinct
    obtain ⟨members₁, hone, hperm₁, hmembers₁⟩ :=
      discloseClaim_ok hmembers (hnew m (.head _)) (hseen m (.head _)) (hlookup m (.head _))
    have hdigest : ∀ m' ∈ rest, d m' ≠ d m := fun m' hm' heq => hfresh (List.mem_map.mpr ⟨m', hm', heq⟩)
    obtain ⟨members', s', hfold, hperm, hmembers', hst'⟩ :=
      ih (s := ⟨s.disclosures.erase (d m), d m :: s.seen⟩) htail hnodup
      hmembers₁
      (fun m' hm' hchosen => by
        obtain ⟨hunprotected, habsent⟩ := hnew m' (.tail m hm') hchosen
        refine ⟨hunprotected, fun m'' hm'' => ?_⟩
        rcases List.mem_append.mp (hperm₁.mem_iff.mp hm'') with hm'' | hm''
        · exact habsent m'' hm''
        · rw [List.mem_singleton.mp (List.mem_filter.mp hm'').1]
          exact Std.ne_of_lt (hhead m' hm'))
      (fun m' hm' hmem => by
        rcases List.mem_cons.mp hmem with heq | hmem
        · exact hdigest m' hm' heq
        · exact hseen m' (.tail m hm') hmem)
      (fun m' hm' => by rw [Finmap.lookup_erase_ne (hdigest m' hm'), hlookup m' (.tail m hm')])
    refine ⟨members', s', ?_, ?_, hmembers', fun x => (hst' x).trans ?_⟩
    · rw [List.map_cons, List.foldlM_cons, hone]
      exact hfold
    · rw [← List.singleton_append, List.filter_append, ← List.append_assoc]
      exact hperm.trans (hperm₁.append_right _)
    by_cases hx : x = d m
    · subst hx
      rw [if_neg hfresh, Finmap.lookup_erase, List.map_cons, if_pos List.mem_cons_self]
    · rw [Finmap.lookup_erase_ne hx]
      simp only [List.map_cons, List.mem_cons, hx, false_or]

end Disclose

/-! ## Fixed claims -/

theorem fixedClaims_names {m : String × Json} (h : m ∈ fixedClaims input) :
    (alwaysDisclosedVcClaim m.1 = true ∨ m.1 = "iat") ∧ isMarker m.1 = false := by
  have hnames : ∀ name ∈ ["cnf", "exp", "iat", "iss", "nbf", "status", "vct"],
      (alwaysDisclosedVcClaim name = true ∨ name = "iat") ∧ isMarker name = false := by decide
  cases hbinding : input.payload.holderBinding <;> cases hstatus : input.status <;>
    simp only [fixedClaims, hbinding, hstatus, Json.member] at h ⊢ <;> grind

theorem fixedClaims_ordered (input : CredentialSignInput) :
    (fixedClaims input).Pairwise fun m m' => m.1 < m'.1 := by
  have hnames : ((fixedClaims input).map Prod.fst).Pairwise (· < ·) := by
    cases hbinding : input.payload.holderBinding <;> cases hstatus : input.status <;>
      simp only [fixedClaims, hbinding, hstatus, Option.map_none, Option.map_some, Json.member, List.nil_append,
        List.cons_append, List.map_cons] <;> decide
  exact List.pairwise_map.mp hnames

theorem filter_fixedClaims (input : CredentialSignInput) {marker : String} (h : isMarker marker = true) :
    ((fixedClaims input).filter fun m => m.1 ≠ marker) = fixedClaims input :=
  List.filter_eq_self.mpr fun m hm => by simpa using ne_of_isMarker (fixedClaims_names hm).2 h

theorem erase_credential (f : Formats) (salt : String → List UInt8) (input : CredentialSignInput) :
    (credential f salt input).erase "_sd_alg"
      = .obj (("_sd", .arr ((subjectClaims input).map fun m => .str (digest f (claimText f salt m))))
        :: fixedClaims input) := by
  have hfixed := filter_fixedClaims input (show isMarker "_sd_alg" = true from rfl)
  simp only [credential, Json.erase, issuedDisclosures, List.map_map, Function.comp_def]
  rw [List.filter_cons_of_pos (by simp), List.filter_cons_of_neg (by simp), hfixed]

/-- The walk at the root of the signed payload, from what its digests disclose. -/
theorem expand_credential {members : List (String × Json)} {st st' : Pending}
    (hfold : ((subjectClaims input).map fun m => Json.str (digest f (claimText f salt m))).foldlM
      (discloseMember true) (fixedClaims input, st) = .ok (members, st')) (hplain : ∀ m ∈ members, Plain m.2) :
    expandDisclosures maxLevels true true ((credential f salt input).erase "_sd_alg") st
    = .ok (.obj members, st') := by
  have hfixed := filter_fixedClaims input (show isMarker "_sd" = true from rfl)
  have habsent : ∀ marker, isMarker marker = true → marker ≠ "_sd" → ∀ digests,
      hasMember marker (("_sd", digests) :: fixedClaims input) = false := by
    intro marker hmarker hne digests
    refine hasMember_eq_false.mpr fun m hm => ?_
    rcases List.mem_cons.mp hm with rfl | hm
    · exact hne.symm
    · exact ne_of_isMarker (fixedClaims_names hm).2 hmarker
  have hdisclose : discloseMembers true true
      (("_sd", .arr ((subjectClaims input).map fun m => .str (digest f (claimText f salt m))))
        :: fixedClaims input) st = .ok (members, st') := by
    rw [← hfold, ← hfixed]
    simp [discloseMembers, Json.get?]
  rw [erase_credential, maxLevels, expandDisclosures, habsent "..." rfl (by decide),
    habsent "_sd_alg" rfl (by decide)]
  simp only [Bool.or_self, Bool.false_eq_true, if_false, hdisclose, bind, Except.bind]
  rw [expandMembers_ok fun m hm => expandDisclosures_plain _ 128 (hplain m hm).unmarked (hplain m hm).shallow]

/-! ## Result -/

/-- What is issued can be split into its parts, and every choice of disclosures can be presented. -/
structure IssuedPresentable (f : Formats) (lease : Option SigningLease) (salt : String → List UInt8)
    (input : CredentialSignInput) (issued : String) : Prop where
  /-- The parts are the signed JWT, the disclosures and an empty part. Without a disclosure there is a second
  tilde, which a verifier reads as an empty disclosure and refuses. -/
  split : ∃ jwt, (lease.bind fun lease => encodeJwt f lease (credential f salt input)) = some jwt
    ∧ (issuedDisclosures f salt input ≠ [] → splitParts issued = jwt :: issuedDisclosures f salt input ++ [""])
    ∧ (issuedDisclosures f salt input = [] → splitParts issued = [jwt, "", ""])
  /-- Any of the disclosures, in any order, give the fixed claims and the claims that they are of. -/
  present : ∀ presented : List String, presented.Nodup →
    presented ⊆ issuedDisclosures f salt input → (∀ m ∈ fixedClaims input, Plain m.2) →
    (∀ m ∈ chosenClaims f salt presented (subjectClaims input), Presentable f salt m) →
    ∃ members, processDisclosures f (credential f salt input) presented = .ok (.obj members)
      ∧ members.Perm (fixedClaims input ++ chosenClaims f salt presented (subjectClaims input))
      ∧ members.Pairwise fun m m' => m.1 < m'.1

section Chosen

variable {presented : List String}
  (hdistinct : ((issuedDisclosures f salt input).map (digest f)).Nodup)
  (hsubset : presented ⊆ issuedDisclosures f salt input)
  (hchosen : ∀ m ∈ chosenClaims f salt presented (subjectClaims input), Presentable f salt m)

include hdistinct hsubset hchosen

theorem readable_presented (hnodup : presented.Nodup) : Readable f presented := by
  refine ⟨fun e he => ?_, ?_⟩
  · obtain ⟨m, hm, rfl⟩ := List.mem_map.mp (hsubset he)
    have hpresentable := hchosen m (List.mem_filter.mpr ⟨hm, by simpa using he⟩)
    exact ⟨_, parseDisclosure_claimText hpresentable⟩
  · exact hnodup.map_on fun e he e' he' => List.inj_on_of_nodup_map hdistinct (hsubset he) (hsubset he')

/-- What the digest of a claim stands for, among the presented disclosures. -/
theorem disclosureMap_claim (hnodup : presented.Nodup) {m : String × Json}
    (hm : m ∈ subjectClaims input) : disclosureMap f presented (digest f (claimText f salt m))
      = if claimText f salt m ∈ presented then some ⟨some m.1, m.2⟩ else none := by
  split_ifs with hmem
  · have hpresentable := hchosen m (List.mem_filter.mpr ⟨hm, by simpa using hmem⟩)
    rw [(readable_presented hdistinct hsubset hchosen hnodup).map_digest hmem, disclosureOf,
      parseDisclosure_claimText hpresentable]
    rfl
  · refine Option.eq_none_iff_forall_ne_some.mpr fun d hd => ?_
    obtain ⟨e, he, heq, -⟩ := disclosureMap_eq_some hd
    have hsame : e = claimText f salt m :=
      List.inj_on_of_nodup_map hdistinct (hsubset he) (List.mem_map_of_mem hm) heq
    exact hmem (hsame ▸ he)

end Chosen

/-- **What is issued can be presented.** -/
theorem issued_presentable (f : Formats) (lease : Option SigningLease) (salt : String → List UInt8)
    (input : CredentialSignInput) (issued : String) (h : sign f lease salt input = .ok issued)
    (hdistinct : ((issuedDisclosures f salt input).map (digest f)).Nodup) :
    IssuedPresentable f lease salt input issued := by
  refine ⟨?_, fun presented hnodup hsubset hfixed hchosen => ?_⟩
  · unfold sign at h
    split_ifs at h
    split at h
    · cases h
    rename_i jwt hjwt
    cases h
    obtain ⟨key, -, hencoded⟩ := Option.bind_eq_some_iff.mp hjwt
    have htilde : ∀ text ∈ issuedDisclosures f salt input, '~' ∉ text.toList := by
      intro text htext
      obtain ⟨m, -, rfl⟩ := List.mem_map.mp htext
      exact tilde_not_mem_claimText f salt m
    have hsplit := splitParts_issued (tilde_not_mem_jwt hencoded) htilde
    exact ⟨jwt, hjwt, fun hsome => by rw [hsplit, if_neg hsome], fun hnone => by rw [hsplit, if_pos hnone]; rfl⟩
  · -- The table holds the presented disclosures.
    have hreadable := readable_presented hdistinct hsubset hchosen hnodup
    obtain ⟨t, ht⟩ := readDisclosures_of_readable hreadable (t := ∅) fun e _ => Finmap.notMem_empty
    have hlookup : ∀ x, t.lookup x = disclosureMap f presented x := by
      intro x
      rw [(readDisclosures_spec ht).2.2 x, Finmap.lookup_empty, Option.or_none]
    -- The digests of the root.
    have hdigests : ((subjectClaims input).map fun m => digest f (claimText f salt m)).Nodup := by
      simpa [issuedDisclosures, Function.comp_def] using hdistinct
    obtain ⟨members, st, hfold, hperm, hordered, hleft⟩ := discloseClaims_ok (s := ⟨t, []⟩)
      input.payload.ordered hdigests (fixedClaims_ordered input)
      (fun m hm hpresented => by
        have hm := hchosen m (List.mem_filter.mpr ⟨hm, hpresented⟩)
        refine ⟨hm.unprotected, fun m' hm' heq => ?_⟩
        rcases (fixedClaims_names hm').1 with hprotected | hiat
        · cases (heq ▸ hprotected).symm.trans hm.unprotected
        · exact hm.fixed (heq ▸ hiat))
      (fun m _ => List.not_mem_nil)
      (fun m hm => by simpa using (hlookup _).trans (disclosureMap_claim hdistinct hsubset hchosen hnodup hm))
    have hplain : ∀ m ∈ members, Plain m.2 := by
      intro m hm
      rcases List.mem_append.mp (hperm.mem_iff.mp hm) with hm | hm
      · exact hfixed m hm
      · exact (hchosen m hm).plain
    -- No disclosure is left.
    have hempty : st.disclosures.keys = ∅ := by
      refine Finset.eq_empty_of_forall_notMem fun x hx => ?_
      obtain ⟨d, hd⟩ := Finmap.mem_iff.mp (Finmap.mem_keys.mp hx)
      rw [hleft x] at hd
      split_ifs at hd with hmem
      rw [hlookup x] at hd
      obtain ⟨e, he, rfl, -⟩ := disclosureMap_eq_some hd
      obtain ⟨m, hm, rfl⟩ := List.mem_map.mp (hsubset he)
      exact hmem (List.mem_map.mpr ⟨m, hm, rfl⟩)
    refine ⟨members, ?_, hperm, hordered⟩
    have hexpand := expand_credential hfold hplain
    have hobject : (credential f salt input).isObject = true := rfl
    have halgorithm : (credential f salt input).get? "_sd_alg" = some (.str "sha-256") := rfl
    simp [processDisclosures, hobject, halgorithm, ht, hexpand, hempty, bind, Except.bind]

/-! ## One of two claims, and a protected name -/

def issueFormats : Formats where
  sha256 := fun text => text.toList.map fun c => UInt8.ofNat c.toNat
  serialize := fun v => match v with
    | .arr [_, .str "age", _] => [1]
    | .arr [_, .str "given_name", _] => [2]
    | .arr [_, .str "aka_vcts", _] => [3]
    | _ => []
  parse := fun bytes => match bytes with
    | [1] => some (.arr [.str "Bw", .str "age", .num 36])
    | [2] => some (.arr [.str "Bw", .str "given_name", .str "Ada"])
    | [3] => some (.arr [.str "Bw", .str "aka_vcts", .arr []])
    | _ => none

def issueLease : SigningLease := ⟨[1, 2, 3], fun _ => some [4, 5]⟩

def issueSalt : String → List UInt8 := fun _ => [7]

def issueInput : CredentialSignInput where
  payload := ⟨"issuer", "type", .obj [("age", .num 36), ("given_name", .str "Ada")], none, by decide⟩
  issuedAt := seconds 100
  expiresAt := seconds 200
  status := none

theorem plain_of_children {v : Json} (h : v.children = []) : Plain v := by
  refine ⟨.intro ?_ fun c hc => absurd (h ▸ hc) List.not_mem_nil, fun c hc => absurd (h ▸ hc) List.not_mem_nil⟩
  rintro members rfl m hm
  rw [List.map_eq_nil_iff.mp h] at hm
  cases hm

theorem issued_presentable_age : IssuedPresentable issueFormats (some issueLease) issueSalt issueInput
        (issuedText "AQID..BAU" (issuedDisclosures issueFormats issueSalt issueInput))
      ∧ ∃ members, processDisclosures issueFormats (credential issueFormats issueSalt issueInput) ["AQ"]
        = .ok (.obj members) ∧ members.Perm (fixedClaims issueInput ++ [("age", .num 36)]) := by
  have hissued := issued_presentable issueFormats (some issueLease) issueSalt issueInput
    (issuedText "AQID..BAU" (issuedDisclosures issueFormats issueSalt issueInput)) rfl (by decide +kernel)
  have hfixed : ∀ m ∈ fixedClaims issueInput, m.2.children = [] := by decide +kernel
  have hchosen : chosenClaims issueFormats issueSalt ["AQ"] (subjectClaims issueInput) = [("age", .num 36)] := by
    decide +kernel
  obtain ⟨members, hmembers, hperm, -⟩ := hissued.present ["AQ"] (by decide) (by decide +kernel)
    (fun m hm => plain_of_children (hfixed m hm)) (fun m hm => by
      obtain rfl := List.mem_singleton.mp hm
      exact ⟨by decide, by decide, by decide, plain_of_children rfl, by decide +kernel⟩)
  exact ⟨hissued, members, hmembers, hchosen ▸ hperm⟩

def reservedInput : CredentialSignInput :=
  { issueInput with payload := ⟨"issuer", "type", .obj [("aka_vcts", .arr [])], none, by decide⟩ }

theorem reserved_claim_refused : (sign issueFormats (some issueLease) issueSalt reservedInput).toOption.isSome
      = true ∧ ((issuedDisclosures issueFormats issueSalt reservedInput).map (digest issueFormats)).Nodup
      ∧ (∀ claim ∈ subjectClaims reservedInput,
        issueFormats.parse (issueFormats.serialize (claimContent issueSalt claim))
        = some (claimContent issueSalt claim))
      ∧ (processDisclosures issueFormats (credential issueFormats issueSalt reservedInput)
        (issuedDisclosures issueFormats issueSalt reservedInput)).toOption = none := by
  decide +kernel

end Present

end NazoAuth.SdJwt
