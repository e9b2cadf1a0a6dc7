import NazoAuth.Keys.Writers

/-!
# Signing keys — a keyset that loads keeps loading

A keyset that loads at some instant loads at every later one (`loads_later`): the keys that retire
in between are left out, and they are neither active nor selected. The only thing that an entry
loses when it retires is that its public JWK is checked instead of its private key, and the public
JWK of a private key passes that check (`PublicOnly`).
-/

namespace NazoAuth.Keys

open Lib

variable {V : Type} {crypto : Crypto V} {signer signer' : Bool} {t t' : Instant} {payload : Payload}
  {keys : List KeyEntry} {e : KeyEntry} {activeKid : String}

/-- The public JWK of a private key has no private members. -/
def PublicOnly (crypto : Crypto V) : Prop :=
  ∀ alg der members, crypto.publicJwk alg der = some members → ∀ m ∈ members, m.1 ∉ privateJwkMembers

/-! ## Public JWKs -/

section Jwks

variable {members : List (String × Json)} {name : String}

theorem get?_value_eq_none (h : ∀ m ∈ members, m.1 ≠ name) : (Json.obj members).value.get? name = none := by
  rw [Json.value, Json.get?, Option.map_eq_none_iff, List.find?_eq_none]
  intro m hm hname
  obtain ⟨v, hv, -⟩ := Json.mem_valueMembers hm
  exact h _ hv (of_decide_eq_true hname)

theorem exists_mem_valueMembers (h : ∃ m ∈ members, m.1 = name) : ∃ m ∈ Json.valueMembers members, m.1 = name := by
  induction members with
  | nil =>
    obtain ⟨m, hm, -⟩ := h
    cases hm
  | cons first rest ih =>
    unfold Json.valueMembers
    split_ifs with hlater
    · -- a later member of this name counts
      obtain ⟨m, hm, hname⟩ := h
      rcases List.mem_cons.mp hm with rfl | hm
      · obtain ⟨m', hm', hname'⟩ := List.any_eq_true.mp hlater
        exact ih ⟨m', hm', (of_decide_eq_true hname').trans hname⟩
      · exact ih ⟨m, hm, hname⟩
    · obtain ⟨m, hm, hname⟩ := h
      rcases List.mem_cons.mp hm with rfl | hm
      · exact ⟨_, Json.mem_insertMember.mpr (.inl rfl), hname⟩
      · obtain ⟨m', hm', hname'⟩ := ih ⟨m, hm, hname⟩
        exact ⟨m', Json.mem_insertMember.mpr (.inr hm'), hname'⟩

theorem get?_value_eq_some {v : Json} (hmem : ∃ m ∈ members, m.1 = name)
    (hall : ∀ m ∈ members, m.1 = name → m.2 = v) : (Json.obj members).value.get? name = some v.value := by
  obtain ⟨m, hm, hname⟩ := exists_mem_valueMembers hmem
  rw [Json.value, Json.get?, Option.map_eq_some_iff]
  cases hfind : (Json.valueMembers members).find? fun m => decide (m.1 = name) with
  | none => exact absurd (decide_eq_true hname) (List.find?_eq_none.mp hfind m hm)
  | some found =>
    refine ⟨found, rfl, ?_⟩
    obtain ⟨v', hv', hvalue⟩ := Json.mem_valueMembers (List.mem_of_find?_eq_some hfind)
    have hfound : found.1 = name := by simpa using List.find?_some hfind
    exact hvalue.trans (congrArg Json.value (hall _ hv' hfound))

/-- The members after one has been set: it is there, once or more, with its value, and the others
are as before. -/
theorem members_of_set (name : String) (v : Json) (members : List (String × Json)) :
    ∃ members', Json.set name v (.obj members) = .obj members' ∧ (∃ m ∈ members', m.1 = name)
      ∧ (∀ m ∈ members', m.1 = name → m.2 = v) ∧ (∀ m ∈ members', m.1 ≠ name → m ∈ members)
      ∧ ∀ m ∈ members, m.1 ≠ name → m ∈ members' := by
  simp only [Json.set]
  split_ifs with hmem
  · refine ⟨_, rfl, ?_, ?_, ?_, ?_⟩
    · obtain ⟨m, hm, hname⟩ := List.any_eq_true.mp hmem
      exact ⟨(name, v), List.mem_map.mpr ⟨m, hm, if_pos (of_decide_eq_true hname)⟩, rfl⟩
    · intro m hm hname
      obtain ⟨m₀, -, rfl⟩ := List.mem_map.mp hm
      by_cases h0 : m₀.1 = name
      · rw [if_pos h0]
      · rw [if_neg h0] at hname
        exact absurd hname h0
    · intro m hm hname
      obtain ⟨m₀, hm₀, rfl⟩ := List.mem_map.mp hm
      by_cases h0 : m₀.1 = name
      · rw [if_pos h0] at hname
        exact absurd rfl hname
      · rw [if_neg h0]
        exact hm₀
    · intro m hm hname
      exact List.mem_map.mpr ⟨m, hm, if_neg hname⟩
  · have hnot : ∀ m ∈ members, m.1 ≠ name :=
      fun m hm hname => hmem (List.any_eq_true.mpr ⟨m, hm, decide_eq_true hname⟩)
    refine ⟨_, rfl, ⟨(name, v), by simp, rfl⟩, ?_, ?_, fun m hm _ => List.mem_append_left _ hm⟩
    · intro m hm hname
      rcases List.mem_append.mp hm with hm | hm
      · exact absurd hname (hnot m hm)
      · rw [List.mem_singleton.mp hm]
    · intro m hm hname
      rcases List.mem_append.mp hm with hm | hm
      · exact hm
      · rw [List.mem_singleton.mp hm] at hname
        exact absurd rfl hname

theorem private_ne : ∀ name ∈ privateJwkMembers, ∀ member ∈ ["kid", "use", "alg"], name ≠ member := by decide

theorem validate_derived (hpublic : PublicOnly crypto) {kid : String} {alg : Algorithm}
    {der : List UInt8} {jwk : Json} (h : publicJwkFromPrivateDer crypto kid alg der = .ok jwk) :
    validateExternalPublicJwk kid alg jwk = .ok () := by
  unfold publicJwkFromPrivateDer at h
  split at h
  · cases h
  rename_i members hmembers
  cases h
  obtain ⟨m₁, h₁, hmem₁, hall₁, hback₁, hforth₁⟩ := members_of_set "kid" (.str kid) members
  obtain ⟨m₂, h₂, hmem₂, hall₂, hback₂, hforth₂⟩ := members_of_set "use" (.str "sig") m₁
  obtain ⟨m₃, h₃, hmem₃, hall₃, hback₃, hforth₃⟩ := members_of_set "alg" (.str (signingAlgorithmName alg)) m₂
  simp only [h₁, h₂, h₃]
  have hkid : (Json.obj m₃).value.get? "kid" = some (.str kid) := by
    refine get?_value_eq_some (v := .str kid) ?_ fun m hm hname => ?_
    · obtain ⟨m, hm, hname⟩ := hmem₁
      exact ⟨m, hforth₃ m (hforth₂ m hm (by rw [hname]; decide)) (by rw [hname]; decide), hname⟩
    · exact hall₁ m (hback₂ m (hback₃ m hm (by rw [hname]; decide)) (by rw [hname]; decide)) hname
  have huse : (Json.obj m₃).value.get? "use" = some (.str "sig") := by
    refine get?_value_eq_some (v := .str "sig") ?_ fun m hm hname => ?_
    · obtain ⟨m, hm, hname⟩ := hmem₂
      exact ⟨m, hforth₃ m hm (by rw [hname]; decide), hname⟩
    · exact hall₂ m (hback₃ m hm (by rw [hname]; decide)) hname
  have halg : (Json.obj m₃).value.get? "alg" = some (.str (signingAlgorithmName alg)) :=
    get?_value_eq_some hmem₃ hall₃
  have hprivate : (privateJwkMembers.find? fun member => ((Json.obj m₃).value.get? member).isSome) = none := by
    rw [List.find?_eq_none]
    intro name hname hsome
    have hnone : (Json.obj m₃).value.get? name = none := by
      refine get?_value_eq_none fun m hm hm' => ?_
      have hne := private_ne name hname
      have hm := hback₃ m hm (by rw [hm']; exact hne "alg" (by decide))
      have hm := hback₂ m hm (by rw [hm']; exact hne "use" (by decide))
      have hm := hback₁ m hm (by rw [hm']; exact hne "kid" (by decide))
      exact hpublic alg der members hmembers m hm (hm' ▸ hname)
    rw [hnone] at hsome
    cases hsome
  have hobject : (Json.obj m₃).value.isObject = true := rfl
  unfold validateExternalPublicJwk
  simp [hobject, hprivate, hkid, huse, halg, Json.str?]

end Jwks

/-! ## Entries -/

theorem liveAt_of_later {retireAt : Option Instant} (ht : t ≤ t') (h : liveAt t' retireAt = true) :
    liveAt t retireAt = true := by
  cases retireAt with
  | none => rfl
  | some =>
    simp only [liveAt, Option.any_some, Bool.not_eq_true', decide_eq_false_iff_not] at h ⊢
    exact fun hr => h (Int.le_trans hr ht)

/-- A process can use an active external key if it has a signer. -/
def CanSign (signer signer' : Bool) (activeKid : String) (e : KeyEntry) : Prop :=
  signer' = signer ∨ signer' = true ∨ (e.kid = activeKid → e.backend = .localDb)

theorem loadMaterial_signer {handle : KeyHandle} (hsigner : CanSign signer signer' activeKid e)
    (h : loadMaterial crypto signer activeKid e = .ok handle) :
    loadMaterial crypto signer' activeKid e = .ok handle := by
  rcases hsigner with rfl | hsigner
  · exact h
  unfold loadMaterial at h ⊢
  cases hbackend : e.backend with
  | localDb =>
    rw [hbackend] at h
    exact h
  | externalCommand =>
    rw [hbackend] at h
    obtain ⟨⟨⟩, hvalid, h⟩ := of_bind h
    refine bind_eq_ok.mpr ⟨(), hvalid, ?_⟩
    split at h
    · cases h
    split at h
    · cases h
    rw [if_neg]
    · exact h
    rcases hsigner with rfl | hlocal
    · simp
    · simp only [Bool.and_eq_true, decide_eq_true_eq, not_and]
      intro hkid
      cases hbackend.symm.trans (hlocal hkid)

theorem validate_of_material (hpublic : PublicOnly crypto) {handle : KeyHandle}
    (h : loadMaterial crypto signer activeKid e = .ok handle) :
    validateExternalPublicJwk e.kid e.alg e.publicJwk = .ok () := by
  unfold loadMaterial at h
  split at h
  · split at h
    · cases h
    obtain ⟨publicJwk, hjwk, h⟩ := of_bind h
    split at h
    · cases h
    · rename_i hsame
      rw [Decidable.not_not.mp hsame]
      exact validate_derived hpublic hjwk
  · obtain ⟨⟨⟩, hvalid, -⟩ := of_bind h
    exact hvalid

/-- A loaded key that is not retired at a later instant. -/
def keptAt (t : Instant) (k : StoredVerificationKey) : Bool := liveAt t k.retireAt

theorem loadEntry_later (hpublic : PublicOnly crypto) (ht : t ≤ t') (hsigner : CanSign signer signer' activeKid e)
    {k : Option StoredVerificationKey} (h : loadEntry crypto signer t activeKid e = .ok k) :
    loadEntry crypto signer' t' activeKid e = .ok (k.filter (keptAt t')) := by
  obtain ⟨purposes, hpurposes, hk⟩ := loadEntry_iff.mp h
  refine loadEntry_iff.mpr ⟨purposes, hpurposes, ?_⟩
  cases k with
  | none =>
    obtain ⟨hdead, hinactive, hvalid⟩ := hk
    refine ⟨?_, hinactive, hvalid⟩
    by_contra hlive
    rw [Bool.not_eq_false] at hlive
    cases (liveAt_of_later ht hlive).symm.trans hdead
  | some key =>
    obtain ⟨-, hcurrent, handle, hmaterial, hkey⟩ := hk
    have hkept : keptAt t' key = liveAt t' e.retireAt := by rw [hkey, keptAt]
    by_cases hlive : liveAt t' e.retireAt = true
    · rw [Option.filter_some_pos (hkept.trans hlive)]
      exact ⟨hlive, hcurrent, handle, loadMaterial_signer hsigner hmaterial, hkey⟩
    rw [Option.filter_some_neg (hkept.trans (Bool.not_eq_true _ ▸ hlive))]
    refine ⟨Bool.not_eq_true _ ▸ hlive, fun hactive => hlive ?_, validate_of_material hpublic hmaterial⟩
    rw [(hcurrent hactive).2]
    rfl

variable {seen : List String}

theorem loadKeys_later (hpublic : PublicOnly crypto) (ht : t ≤ t')
    (hsigner : ∀ e ∈ keys, CanSign signer signer' activeKid e) {loaded : List StoredVerificationKey}
    (h : loadKeys crypto signer t activeKid seen keys = .ok loaded) :
    loadKeys crypto signer' t' activeKid seen keys = .ok (loaded.filter (keptAt t')) := by
  induction keys generalizing seen loaded with
  | nil =>
    cases h
    rfl
  | cons e rest ih =>
    unfold loadKeys at h ⊢
    split_ifs at h ⊢
    obtain ⟨key, hkey, h⟩ := of_bind h
    obtain ⟨others, hothers, h⟩ := of_bind h
    cases h
    refine bind_eq_ok.mpr ⟨_, loadEntry_later hpublic ht (hsigner e (.head _)) hkey, bind_eq_ok.mpr
      ⟨_, ih (fun e he => hsigner e (.tail _ he)) hothers, ?_⟩⟩
    cases key with
    | none => simp
    | some key => cases hkept : keptAt t' key <;> simp [Option.filter, hkept]

theorem retireAt_of_loaded {loaded : List StoredVerificationKey}
    (h : loadKeys crypto signer t activeKid seen keys = .ok loaded) : ∀ k ∈ loaded,
      (k.managed.kid = activeKid → k.retireAt = none) ∧ (k.managed.state = .active → k.retireAt = none) := by
  intro k hk
  obtain ⟨e, -, hentry⟩ := (loadKeys_eq_ok h).keys k hk
  obtain ⟨purposes, -, -, hcurrent, handle, -, rfl⟩ := loadEntry_iff.mp hentry
  exact ⟨fun hactive => (hcurrent hactive).2, retireAt_of_active⟩

/-! ## Keysets -/

/-- The keys of a loaded keyset without those that are retired later. -/
def LoadedKeyset.keep (t : Instant) (loaded : LoadedKeyset) (retained : List String) : LoadedKeyset :=
  { loaded with
    verificationKeys := loaded.verificationKeys.filter (keptAt t), requestObjectRetainedKids := retained }

theorem find?_keep {keys : List StoredVerificationKey}
    (h : ∀ k ∈ keys, k.managed.kid = activeKid → k.retireAt = none) :
    (keys.filter (keptAt t)).find? (fun k => decide (k.managed.kid = activeKid))
      = keys.find? fun k => decide (k.managed.kid = activeKid) := by
  induction keys with
  | nil => rfl
  | cons k rest ih =>
    have ih := ih fun k hk => h k (.tail _ hk)
    by_cases hkid : k.managed.kid = activeKid
    · have hkept : keptAt t k = true := by rw [keptAt, h k List.mem_cons_self hkid]; rfl
      rw [List.filter_cons_of_pos hkept, List.find?_cons, List.find?_cons, decide_eq_true hkid]
    rw [List.find?_cons, decide_eq_false hkid]
    cases hkept : keptAt t k with
    | true => rw [List.filter_cons_of_pos hkept, List.find?_cons, decide_eq_false hkid, ih]
    | false => rw [List.filter_cons_of_neg (by rw [hkept]; decide), ih]

variable {alg : Algorithm} {purpose : SigningPurpose} {loaded : LoadedKeyset}

theorem scopedSelection_eq_none {k : StoredVerificationKey} (h : k.managed.state ≠ .active) :
    scopedSelection activeKid purpose alg k = none := by
  have hsign : k.managed.canSign purpose = false := by simp [ManagedKey.canSign, h]
  simp [scopedSelection, hsign]

theorem findSome?_keep {keys : List StoredVerificationKey}
    (h : ∀ k ∈ keys, k.managed.state = .active → k.retireAt = none) :
    (keys.filter (keptAt t)).findSome? (scopedSelection activeKid purpose alg) = keys.findSome?
    (scopedSelection activeKid purpose alg) := by
  induction keys with
  | nil => rfl
  | cons k rest ih =>
    have ih := ih fun k hk => h k (.tail _ hk)
    cases hkept : keptAt t k with
    | true => rw [List.filter_cons_of_pos hkept, List.findSome?_cons, List.findSome?_cons, ih]
    | false =>
      -- a key that has retired is not active
      have hstate : k.managed.state ≠ .active := by
        intro hactive
        rw [keptAt, h k List.mem_cons_self hactive] at hkept
        cases hkept
      rw [List.filter_cons_of_neg (by rw [hkept]; decide), List.findSome?_cons, scopedSelection_eq_none hstate, ih]

theorem selectedKey_keep {retained : List String}
    (hactive : ∀ k ∈ loaded.verificationKeys, k.managed.kid = loaded.activeKid → k.retireAt = none)
    (hstate : ∀ k ∈ loaded.verificationKeys, k.managed.state = .active → k.retireAt = none)
    (purpose : SigningPurpose) (alg : Algorithm) :
    (loaded.keep t retained).selectedKey purpose alg = loaded.selectedKey purpose alg := by
  unfold LoadedKeyset.selectedKey LoadedKeyset.keep
  rw [find?_keep hactive, findSome?_keep hstate]

theorem loadRetainedKeys_later (ht : t ≤ t') {entries : List RetainedKey}
    {loaded loaded' kids' : List String} (hsub : loaded' ⊆ loaded)
    (h : loadRetainedKeys crypto t loaded entries = .ok kids') :
    ∃ kids'', loadRetainedKeys crypto t' loaded' entries = .ok kids'' := by
  induction entries generalizing loaded loaded' with
  | nil => exact ⟨_, rfl⟩
  | cons entry rest ih =>
    unfold loadRetainedKeys at h ⊢
    by_cases hdead : (entry.retireAt.any fun deadline => decide (deadline ≤ t)) = true
    · rw [if_pos hdead] at h
      have hdead' : (entry.retireAt.any fun deadline => decide (deadline ≤ t')) = true := by
        obtain ⟨r, hr, hle⟩ := (Option.any_eq_true _ _).mp hdead
        exact (Option.any_eq_true _ _).mpr ⟨r, hr, decide_eq_true (Int.le_trans (of_decide_eq_true hle) ht)⟩
      rw [if_pos hdead']
      exact ih hsub h
    · rw [if_neg hdead] at h
      split at h
      · cases h
      rename_i kid hkid
      split_ifs at h with hbad
      by_cases hdead' : (entry.retireAt.any fun deadline => decide (deadline ≤ t')) = true
      · rw [if_pos hdead']
        exact ih (fun x hx => List.mem_append_left _ (hsub hx)) h
      rw [if_neg hdead']
      have hgood : ¬ (decide (entry.kid ≠ kid) || decide (kid ∈ loaded')) = true := by
        simp only [Bool.or_eq_true, decide_eq_true_eq, not_or] at hbad ⊢
        exact ⟨hbad.1, fun hmem => hbad.2 (hsub hmem)⟩
      rw [if_neg hgood]
      refine ih (fun x hx => ?_) h
      rcases List.mem_append.mp hx with hx | hx
      · exact List.mem_append_left _ (hsub hx)
      · exact List.mem_append_right _ hx

/-- **A keyset that loads keeps loading**, in a process without an external signer if the active key
is local. -/
theorem loads_later (hpublic : PublicOnly crypto) (ht : t ≤ t')
    (hsigner : ∀ e ∈ payload.keys, CanSign signer signer' payload.activeKid e)
    (h : loadPayload crypto signer t payload = .ok loaded) :
    ∃ loaded', loadPayload crypto signer' t' payload = .ok loaded' := by
  have hfrom := loadPayload_iff.mp h
  have hretire := retireAt_of_loaded hfrom.keys
  obtain ⟨retained, hretained⟩ := loadRetainedKeys_later ht (List.Subset.refl _) hfrom.retained
  refine ⟨loaded.keep t' retained, loadPayload_iff.mpr ⟨hfrom.schemaVersion, hfrom.recipient,
    loadKeys_later hpublic ht hsigner hfrom.keys, ?_, hretained, hfrom.activeKid, hfrom.material,
    ?_, hfrom.source⟩⟩
  · obtain ⟨active, hactive, halg, hhandle⟩ := hfrom.active
    refine ⟨active, ?_, halg, hhandle⟩
    exact (find?_keep fun k hk => (hretire k hk).1).trans hactive
  · have hselected : ∀ purpose alg, (loaded.keep t' retained).selectedKey purpose alg
        = loaded.selectedKey purpose alg :=
      selectedKey_keep (fun k hk hkid => (hretire k hk).1 (hkid.trans hfrom.activeKid)) fun k hk =>
        (hretire k hk).2
    have hvalidated := hfrom.validated
    unfold validateOpenid4vcMaterial at hvalidated ⊢
    rw [hselected, hselected]
    exact hvalidated

/-- **A retired key is not selected.** -/
theorem selected_not_retired (h : loadPayload crypto signer t payload = .ok loaded)
    {selected : SelectedKey} (hselected : loaded.selectedKey purpose alg = some selected) :
    ∃ e ∈ payload.keys, e.kid = selected.kid ∧ e.retireAt = none := by
  obtain ⟨k, hk, hkid, -, -, hstate⟩ := loaded_of_selected hselected
  obtain ⟨e, he, hshows⟩ := (agrees_of_load h).2.shows k hk
  exact ⟨e, he, hshows.kid.symm.trans hkid, hshows.retireAt.symm.trans (hshows.active hstate)⟩

theorem active_of_load (h : loadPayload crypto signer t payload = .ok loaded) :
    ∃ e ∈ payload.keys, e.kid = payload.activeKid ∧ e.purposes = none ∧ e.retireAt = none := by
  have hfrom := loadPayload_iff.mp h
  obtain ⟨active, hactive, -⟩ := hfrom.active
  obtain ⟨e, he, hshows⟩ := (agrees_of_load h).2.shows active (List.mem_of_find?_eq_some hactive)
  have hfound : active.managed.kid = payload.activeKid := by simpa using List.find?_some hactive
  have hkid : e.kid = payload.activeKid := hshows.kid.symm.trans hfound
  obtain ⟨k, hk, -⟩ := (loadKeys_eq_ok hfrom.keys).entries e he
  obtain ⟨purposes, -, hentry⟩ := loadEntry_iff.mp hk
  cases k with
  | none => exact absurd hkid hentry.2.1
  | some => exact ⟨e, he, hkid, hentry.2.1 hkid⟩

end NazoAuth.Keys
