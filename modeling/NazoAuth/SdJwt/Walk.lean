import NazoAuth.SdJwt.Disclosures

/-!
# SD-JWT — the walk substitutes

What processing is for: the value of a payload under a set of disclosures is the payload with every
digest replaced in its place (`substitute`). The walk computes it, and it meets exactly the digests
that stand in the payload and in the values that it has put in (`Meets`).
-/

namespace NazoAuth.SdJwt

open Lib DigitalCredentials

/-! ## Digests in a value -/

def sdDigests (members : List (String × Json)) : List String :=
  match (Json.obj members).get? "_sd" with
  | some (.arr digests) => digests.filterMap Json.str?
  | _ => []

def placeholder? (item : Json) : Option String := (item.get? "...").bind Json.str?

mutual

def references : Json → List String
  | .obj members => sdDigests members ++ memberReferences members
  | .arr items => itemReferences items
  | _ => []

def memberReferences : List (String × Json) → List String
  | [] => []
  | (name, value) :: rest => (if isMarker name then [] else references value) ++ memberReferences rest

def itemReferences : List Json → List String
  | [] => []
  | item :: rest =>
    (match placeholder? item with
      | some digest => [digest]
      | none => references item) ++ itemReferences rest

end

/-! ## The value of a payload -/

variable (D : String → Option Disclosure)

def substituteMember (acc : List (String × Json)) (digest : String) : List (String × Json) :=
  match D digest with
  | some ⟨some name, value⟩ => insertMember name value acc
  | _ => acc

/-- The members of an object with those that its digests stand for. -/
def substituteMembers (members : List (String × Json)) : List (String × Json) :=
  (sdDigests members).foldl (substituteMember D) (members.filter fun m => m.1 ≠ "_sd")

def elementOf (item : Json) : Option Json :=
  match placeholder? item with
  | none => some item
  | some digest =>
    match D digest with
    | some ⟨none, value⟩ => some value
    | _ => none

/-- The value with every digest replaced by what it stands for. -/
def substitute (D : String → Option Disclosure) : Nat → Json → Json
  | 0, v => v
  | n + 1, .obj members => .obj ((substituteMembers D members).map fun m => (m.1, substitute D n m.2))
  | n + 1, .arr items => .arr ((items.filterMap (elementOf D)).map (substitute D n))
  | _ + 1, v => v

/-- No object of the value has a name that marks digests. -/
def Unmarked : Json → Prop := Json.Everywhere fun v => ∀ members, v = .obj members →
    ∀ m ∈ members, isMarker m.1 = false

/-! ## Digests that the walk meets -/

section Walk

variable {D : String → Option Disclosure} {st st' st₁ st₂ : Pending} {a b c debt debt' : List String}

def disclosed (D : String → Option Disclosure) (digests : List String) : List String :=
  digests.flatMap fun digest => match D digest with
    | some d => references d.value
    | none => []

/-- A property of digests that passes from a digest to those in the value that it stands for. -/
def Closed (D : String → Option Disclosure) (P : String → Prop) : Prop :=
  ∀ digest d, P digest → D digest = some d → ∀ digest' ∈ references d.value, P digest'

/-- The table is what the digests that were met have left of `D`. -/
structure Holds (D : String → Option Disclosure) (st : Pending) : Prop where
  left : ∀ digest, st.disclosures.lookup digest = if digest ∈ st.seen then none else D digest
  nodup : st.seen.Nodup

/-- The walk has met the digests `direct` and those in the values that it has put in, without those
of `debt`, which it has still to visit. -/
structure Meets (D : String → Option Disclosure) (direct debt : List String) (st st' : Pending) : Prop where
  holds : Holds D st'
  met : ∃ met, st'.seen = met ++ st.seen
    ∧ (∀ x, met.count x + debt.count x = direct.count x + (disclosed D met).count x)
    ∧ ∀ P, (∀ x ∈ direct, P x) → Closed D P → (∀ x ∈ met, P x) ∧ ∀ x ∈ debt, P x

theorem Meets.refl (h : Holds D st) : Meets D [] [] st st :=
  ⟨h, [], rfl, fun _ => rfl, fun _ _ _ => ⟨nofun, nofun⟩⟩

/-- Two parts of the walk. The second visits what the first has left, up to `rest`. -/
theorem Meets.trans (rest : List String) (h : Meets D a debt st st₁) (h' : Meets D b debt' st₁ st₂)
    (hb : ∀ x, b.count x + rest.count x = c.count x + debt.count x) (hrest : rest ⊆ debt) :
    Meets D (a ++ c) (rest ++ debt') st st₂ := by
  obtain ⟨met, hseen, hcount, hclosed⟩ := h.met
  obtain ⟨met', hseen', hcount', hclosed'⟩ := h'.met
  refine ⟨h'.holds, met' ++ met, by rw [hseen', hseen, List.append_assoc], fun x => ?_, fun P hP hD => ?_⟩
  · have h₁ := hcount x
    have h₂ := hcount' x
    have h₃ := hb x
    have hsum : disclosed D (met' ++ met) = disclosed D met' ++ disclosed D met := List.flatMap_append
    rw [hsum]
    simp only [List.count_append]
    omega
  · obtain ⟨hmet, hdebt⟩ := hclosed P (fun x hx => hP x (List.mem_append_left c hx)) hD
    have hbP : ∀ x ∈ b, P x := by
      intro x hx
      have hpos := List.count_pos_iff.mpr hx
      have h₃ := hb x
      by_cases hc : x ∈ c
      · exact hP x (List.mem_append_right a hc)
      · refine hdebt x (List.count_pos_iff.mp ?_)
        rw [List.count_eq_zero_of_not_mem hc] at h₃
        omega
    obtain ⟨hmet', hdebt'⟩ := hclosed' P hbP hD
    refine ⟨fun x hx => ?_, fun x hx => ?_⟩
    · rcases List.mem_append.mp hx with hx | hx
      · exact hmet' x hx
      · exact hmet x hx
    · rcases List.mem_append.mp hx with hx | hx
      · exact hdebt x (hrest hx)
      · exact hdebt' x hx

theorem Meets.append (h : Meets D a debt st st₁) (h' : Meets D b debt' st₁ st₂) :
    Meets D (a ++ b) (debt ++ debt') st st₂ :=
  h.trans debt h' (fun _ => rfl) (List.Subset.refl debt)

theorem Meets.settle (h : Meets D a debt st st₁) (h' : Meets D b [] st₁ st₂)
    (hb : ∀ x, b.count x = c.count x + debt.count x) : Meets D (a ++ c) [] st st₂ :=
  h.trans [] h' hb (List.nil_subset debt)

def debtOf : Option Disclosure → List String
  | some d => references d.value
  | none => []

theorem takeDisclosure_spec {x : String} {r : Option Disclosure × Pending} (hst : Holds D st)
    (h : takeDisclosure st x = .ok r) : r.1 = D x ∧ Meets D [x] (debtOf (D x)) st r.2 := by
  unfold takeDisclosure at h
  split_ifs at h with hseen
  have hnew : x ∉ st.seen := by simpa using hseen
  cases h
  refine ⟨(hst.left x).trans (if_neg hnew), ⟨fun y => ?_, List.nodup_cons.mpr ⟨hnew, hst.nodup⟩⟩, [x], rfl,
    fun y => ?_, fun P hP hD => ⟨hP, ?_⟩⟩
  · by_cases hy : y = x
    · subst hy
      rw [if_pos List.mem_cons_self]
      exact Finmap.lookup_erase y st.disclosures
    · simp only [List.mem_cons, hy, false_or]
      exact (Finmap.lookup_erase_ne hy).trans (hst.left y)
  · cases hD : D x <;> simp [disclosed, debtOf, hD]
  · intro y hy
    cases hx : D x with
    | none => rw [hx] at hy; cases hy
    | some d => exact hD x d (hP x List.mem_cons_self) hx y (by rw [hx] at hy; exact hy)

/-! ## Members and elements -/

theorem memberReferences_filter {marker : String} (hmarker : isMarker marker = true)
    (members : List (String × Json)) :
    memberReferences (members.filter fun m => m.1 ≠ marker) = memberReferences members := by
  induction members with
  | nil => rfl
  | cons m rest ih =>
    by_cases hm : m.1 = marker
    · rw [List.filter_cons_of_neg (by simp [hm]), ih, memberReferences, if_pos (hm ▸ hmarker), List.nil_append]
    · rw [List.filter_cons_of_pos (by simp [hm]), memberReferences, memberReferences, ih]

variable {name : String} {members : List (String × Json)}

theorem count_insertMember (hname : isMarker name = false) (value : Json)
    (members : List (String × Json)) (x : String) :
    (memberReferences (insertMember name value members)).count x
      = (memberReferences members).count x + (references value).count x := by
  induction members with
  | nil => simp [insertMember, memberReferences, hname]
  | cons m rest ih =>
    unfold insertMember
    split_ifs
    · simp only [memberReferences, hname, Bool.false_eq_true, if_false, List.count_append]
      omega
    · simp only [memberReferences, List.count_append]
      omega

theorem mem_insertMember {value : Json} {m : String × Json} :
    m ∈ insertMember name value members ↔ m = (name, value) ∨ m ∈ members := by
  induction members with
  | nil => simp [insertMember]
  | cons m' rest ih =>
    unfold insertMember
    split_ifs
    · simp
    · simp only [List.mem_cons]
      tauto

def Named (D : String → Option Disclosure) : Prop :=
  ∀ digest d name, D digest = some d → d.name = some name → isMarker name = false

variable {r : List (String × Json) × Pending} {root allowed : Bool}

theorem discloseMember_spec {acc : List (String × Json) × Pending} {digest : Json}
    (hD : Named D) (hst : Holds D acc.2) (h : discloseMember root acc digest = .ok r) :
    ∃ x, digest = .str x ∧ r.1 = substituteMember D acc.1 x ∧ Meets D [x] (debtOf (D x)) acc.2 r.2
      ∧ (∀ y, (memberReferences r.1).count y = (memberReferences acc.1).count y + (debtOf (D x)).count y)
      ∧ ∀ m ∈ r.1, m ∈ acc.1 ∨ isMarker m.1 = false := by
  cases digest with
  | str x =>
    obtain ⟨taken, htake, h⟩ := of_bind h
    obtain ⟨hfound, hmeets⟩ := takeDisclosure_spec hst htake
    refine ⟨x, rfl, ?_⟩
    rw [hfound] at h
    cases hx : D x with
    | none =>
      rw [hx] at h hmeets
      cases h
      exact ⟨by simp only [substituteMember, hx], hmeets, fun y => by simp [debtOf], fun m hm => .inl hm⟩
    | some d =>
      rw [hx] at h hmeets
      obtain ⟨dname, value⟩ := d
      cases dname with
      | none => cases h
      | some name =>
        dsimp only at h
        split_ifs at h
        cases h
        have hname : isMarker name = false := hD x _ name hx rfl
        refine ⟨by simp only [substituteMember, hx], hmeets, count_insertMember hname value acc.1, fun m hm => ?_⟩
        rcases mem_insertMember.mp hm with rfl | hm
        · exact .inr hname
        · exact .inl hm
  | null | bool _ | num _ | real _ _ | arr _ | obj _ => cases h

theorem discloseFold_spec {digests : List Json} (hD : Named D) :
    ∀ (acc : List (String × Json) × Pending) {r : List (String × Json) × Pending}, Holds D acc.2 →
      digests.foldlM (discloseMember root) acc = .ok r →
      ∃ debt, r.1 = (digests.filterMap Json.str?).foldl (substituteMember D) acc.1
        ∧ Meets D (digests.filterMap Json.str?) debt acc.2 r.2
        ∧ (∀ y, (memberReferences r.1).count y = (memberReferences acc.1).count y + debt.count y)
        ∧ ∀ m ∈ r.1, m ∈ acc.1 ∨ isMarker m.1 = false := by
  induction digests with
  | nil =>
    intro acc r hst h
    obtain rfl := pure_eq_ok.mp h
    exact ⟨[], rfl, .refl hst, fun y => rfl, fun m hm => .inl hm⟩
  | cons digest digests ih =>
    intro acc r hst h
    obtain ⟨acc', hone, hrest⟩ := of_bind h
    obtain ⟨x, rfl, hvalue, hmeets, hcount, hnames⟩ := discloseMember_spec hD hst hone
    obtain ⟨debt, hvalue', hmeets', hcount', hnames'⟩ := ih acc' hmeets.holds hrest
    refine ⟨debtOf (D x) ++ debt, ?_, ?_, fun y => ?_, fun m hm => ?_⟩
    · rw [hvalue', hvalue]
      rfl
    · exact hmeets.append hmeets'
    · rw [hcount', hcount, List.count_append]
      omega
    · rcases hnames' m hm with hm' | hm'
      · exact hnames m hm'
      · exact .inr hm'

theorem discloseMembers_spec (hD : Named D) (hst : Holds D st)
    (hmark : (hasMember "..." members || hasMember "_sd_alg" members) = false)
    (h : discloseMembers root allowed members st = .ok r) :
    ∃ debt, r.1 = substituteMembers D members ∧ Meets D (sdDigests members) debt st r.2
      ∧ (∀ y, (memberReferences r.1).count y = (memberReferences members).count y + debt.count y)
      ∧ ∀ m ∈ r.1, isMarker m.1 = false := by
  -- Other markers are excluded by the test before, and `_sd` is taken out.
  have hplain : ∀ m ∈ members, m.1 ≠ "_sd" → isMarker m.1 = false := by
    intro m hm hsd
    simp only [hasMember, Bool.or_eq_false_iff, List.any_eq_false] at hmark
    simp [isMarker, hsd, hmark.1 m hm, hmark.2 m hm]
  unfold discloseMembers at h
  cases hget : (Json.obj members).get? "_sd" with
  | none =>
    rw [hget] at h
    cases h
    have habsent : ∀ m ∈ members, m.1 ≠ "_sd" := by
      intro m hm
      have hfind := List.find?_eq_none.mp (Option.map_eq_none_iff.mp hget) m hm
      simpa using hfind
    have hdigests : sdDigests members = [] := by simp only [sdDigests, hget]
    refine ⟨[], ?_, hdigests ▸ .refl hst, fun y => rfl, fun m hm => hplain m hm (habsent m hm)⟩
    rw [substituteMembers, hdigests, List.foldl_nil,
      List.filter_eq_self.mpr fun m hm => by simpa using habsent m hm]
  | some digests =>
    rw [hget] at h
    split_ifs at h
    cases digests with
    | arr digests =>
      obtain ⟨debt, hvalue, hmeets, hcount, hnames⟩ := discloseFold_spec hD (_, st) hst h
      have hdigests : sdDigests members = digests.filterMap Json.str? := by simp only [sdDigests, hget]
      refine ⟨debt, by rw [substituteMembers, hdigests]; exact hvalue,
        hdigests ▸ hmeets, fun y => ?_, fun m hm => ?_⟩
      · rw [hcount, memberReferences_filter rfl]
      rcases hnames m hm with hm' | hm'
      · obtain ⟨hm', hne⟩ := List.mem_filter.mp hm'
        exact hplain m hm' (by simpa using hne)
      · exact hm'
    | null | bool _ | num _ | real _ _ | str _ | obj _ => cases h

/-- What the walk does in a value, where it computes `g`. -/
structure Expanded (D : String → Option Disclosure) (g : Json → Json) (v : Json) (st : Pending)
    (r : Json × Pending) : Prop where
  value : r.1 = g v
  meets : Meets D (references v) [] st r.2
  unmarked : Unmarked r.1

variable {g : Json → Json}

theorem expandMembers_spec {step : String → Json → Pending → Except CredentialTrustError (Json × Pending)}
    (hstep : ∀ name v st r, Holds D st → step name v st = .ok r → Expanded D g v st r) :
    ∀ {members : List (String × Json)} {st : Pending} {r : List (String × Json) × Pending}, Holds D st →
      (∀ m ∈ members, isMarker m.1 = false) → expandMembers step members st = .ok r →
      r.1 = members.map (fun m => (m.1, g m.2)) ∧ Meets D (memberReferences members) [] st r.2
        ∧ ∀ m ∈ r.1, isMarker m.1 = false ∧ Unmarked m.2 := by
  intro members
  induction members with
  | nil =>
    intro st r hst _ h
    cases h
    exact ⟨rfl, .refl hst, by simp⟩
  | cons m rest ih =>
    intro st r hst hnames h
    obtain ⟨expanded, hone, h⟩ := of_bind h
    obtain ⟨others, hrest, h⟩ := of_bind h
    cases h
    have he := hstep m.1 m.2 st expanded hst hone
    have hname := hnames m (.head _)
    obtain ⟨hvalue, hmeets, hunmarked⟩ := ih he.meets.holds (fun m' hm' => hnames m' (.tail m hm')) hrest
    refine ⟨by rw [hvalue, he.value]; rfl, ?_, fun m' hm' => ?_⟩
    · have hrefs : memberReferences (m :: rest) = references m.2 ++ memberReferences rest := by
        simp [memberReferences, hname]
      rw [hrefs]
      exact he.meets.append hmeets
    · rcases List.mem_cons.mp hm' with rfl | hm'
      · exact ⟨hname, he.unmarked⟩
      · exact hunmarked m' hm'

/-- The digests of an array element, and what its disclosure leaves to visit. -/
theorem discloseItem_spec {item : Json} {r : Option Json × Pending} (hst : Holds D st)
    (h : discloseItem allowed item st = .ok r) :
    r.1 = elementOf D item ∧ ((r.1 = some item ∧ r.2 = st ∧ placeholder? item = none)
      ∨ ∃ x, placeholder? item = some x ∧ Meets D [x] ((r.1.map references).getD []) st r.2) := by
  unfold discloseItem at h
  cases hget : item.get? "..." with
  | none =>
    rw [hget] at h
    cases h
    have hplace : placeholder? item = none := by simp only [placeholder?, hget, Option.bind_none]
    exact ⟨by simp only [elementOf, hplace], .inl ⟨rfl, rfl, hplace⟩⟩
  | some digest =>
    rw [hget] at h
    split_ifs at h
    cases digest with
    | str x =>
      obtain ⟨taken, htake, h⟩ := of_bind h
      obtain ⟨hfound, hmeets⟩ := takeDisclosure_spec hst htake
      have hplace : placeholder? item = some x := by simp only [placeholder?, hget, Option.bind_some, Json.str?]
      rw [hfound] at h
      cases hx : D x with
      | none =>
        rw [hx] at h hmeets
        cases h
        exact ⟨by simp only [elementOf, hplace, hx], .inr ⟨x, hplace, hmeets⟩⟩
      | some d =>
        rw [hx] at h hmeets
        obtain ⟨dname, value⟩ := d
        cases dname with
        | some => cases h
        | none =>
          cases h
          exact ⟨by simp only [elementOf, hplace, hx], .inr ⟨x, hplace, hmeets⟩⟩
    | null | bool _ | num _ | real _ _ | arr _ | obj _ => cases h

theorem expandItems_spec {step : Json → Pending → Except CredentialTrustError (Json × Pending)}
    (hstep : ∀ v st r, Holds D st → step v st = .ok r → Expanded D g v st r) :
    ∀ {items : List Json} {st : Pending} {r : List Json × Pending}, Holds D st →
    expandItems allowed step items st = .ok r →
      r.1 = (items.filterMap (elementOf D)).map g ∧ Meets D (itemReferences items) [] st r.2
        ∧ ∀ v ∈ r.1, Unmarked v := by
  intro items
  induction items with
  | nil =>
    intro st r hst h
    cases h
    exact ⟨rfl, .refl hst, by simp⟩
  | cons item rest ih =>
    intro st r hst h
    obtain ⟨disclosed, hone, h⟩ := of_bind h
    obtain ⟨hvalue, hcase⟩ := discloseItem_spec hst hone
    cases hfirst : disclosed.1 with
    | none =>
      -- The element is not disclosed.
      rw [hfirst] at h hvalue hcase
      obtain ⟨hsome, -, -⟩ | ⟨x, hplace, hmeets⟩ := hcase
      · cases hsome
      obtain ⟨hvalue', hmeets', hunmarked⟩ := ih hmeets.holds h
      refine ⟨?_, ?_, hunmarked⟩
      · rw [List.filterMap_cons_none hvalue.symm, hvalue']
      · simp only [itemReferences, hplace]
        exact hmeets.append hmeets'
    | some value =>
      rw [hfirst] at h hvalue hcase
      obtain ⟨expanded, hstep', h⟩ := of_bind h
      obtain ⟨others, hrest, h⟩ := of_bind h
      cases h
      have hholds : Holds D disclosed.2 := by
        obtain ⟨-, hsame, -⟩ | ⟨x, -, hmeets⟩ := hcase
        · exact hsame ▸ hst
        · exact hmeets.holds
      have he := hstep value disclosed.2 expanded hholds hstep'
      obtain ⟨hvalue', hmeets', hunmarked⟩ := ih he.meets.holds hrest
      have hhead : Meets D (match placeholder? item with | some digest => [digest] | none => references item) [] st
          expanded.2 := by
        obtain ⟨hsome, hsame, hplace⟩ | ⟨x, hplace, hmeets⟩ := hcase
        · cases hsome
          rw [hplace, ← hsame]
          exact he.meets
        · rw [hplace]
          exact hmeets.settle he.meets fun y => by simp
      refine ⟨?_, ?_, fun v hv => ?_⟩
      · rw [List.filterMap_cons_some hvalue.symm, hvalue', he.value]
        rfl
      · exact hhead.append hmeets'
      · rcases List.mem_cons.mp hv with rfl | hv
        · exact he.unmarked
        · exact hunmarked v hv

/-- **The walk substitutes.** By induction on the levels: the loops take the step one level down. -/
theorem expandDisclosures_spec (hD : Named D) (levels : Nat) :
    ∀ {root allowed : Bool} {v : Json} {st : Pending} {r : Json × Pending}, Holds D st →
      expandDisclosures levels root allowed v st = .ok r → Expanded D (substitute D levels) v st r := by
  induction levels with
  | zero => intro root allowed v st r _ h; cases h
  | succ levels ih =>
    intro root allowed v st r hst h
    cases v with
    | obj =>
      simp only [expandDisclosures] at h
      split_ifs at h with hmark
      obtain ⟨disclosed, hdisclose, h⟩ := of_bind h
      obtain ⟨expanded, hexpand, h⟩ := of_bind h
      cases h
      obtain ⟨debt, hvalue, hmeets, hcount, hnames⟩ := discloseMembers_spec hD hst (by simpa using hmark) hdisclose
      obtain ⟨hvalue', hmeets', hunmarked⟩ := expandMembers_spec (fun _ _ _ _ => ih) hmeets.holds hnames hexpand
      refine ⟨?_, ?_, .intro (fun members' heq m hm => ?_) fun c hc => ?_⟩
      · rw [hvalue', hvalue]
        rfl
      · exact hmeets.settle hmeets' hcount
      · cases heq
        exact (hunmarked m hm).1
      · obtain ⟨m, hm, rfl⟩ := List.mem_map.mp hc
        exact (hunmarked m hm).2
    | arr =>
      obtain ⟨expanded, hexpand, h⟩ := of_bind h
      cases h
      obtain ⟨hvalue, hmeets, hunmarked⟩ := expandItems_spec (fun _ _ _ => ih) hst hexpand
      refine ⟨?_, ?_, .intro (fun members' heq => nomatch heq) hunmarked⟩
      · rw [hvalue]
        rfl
      · exact hmeets
    | null | bool _ | num _ | real _ _ | str _ =>
      cases h
      exact ⟨rfl, .refl hst, .intro (fun members' heq => nomatch heq) fun c hc => absurd hc List.not_mem_nil⟩

end Walk

end NazoAuth.SdJwt
