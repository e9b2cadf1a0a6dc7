import NazoAuth.SdJwt.Walk

/-!
# SD-JWT — disclosures are processed exactly

The table of disclosures depends on their set only, and the walk computes the value that they give
to the payload. Since the walk meets no digest twice and takes all disclosures, each disclosure is
referenced once.
-/

namespace NazoAuth.SdJwt

open Lib DigitalCredentials

/-! ## Reading disclosures -/

section Read

variable {f : Formats} {encoded encoded' : List String} {t t' : DisclosureTable}

def disclosureOf (f : Formats) (encoded : String) : Option Disclosure := (parseDisclosure f encoded).toOption

/-- What a digest stands for, among the presented disclosures. -/
def disclosureMap (f : Formats) (encoded : List String) (x : String) : Option Disclosure :=
  (encoded.find? fun e => digest f e = x).bind (disclosureOf f)

theorem disclosureMap_eq_some {x : String} {d : Disclosure} (h : disclosureMap f encoded x = some d) :
    ∃ e ∈ encoded, digest f e = x ∧ parseDisclosure f e = .ok d := by
  obtain ⟨e, hfind, hvalue⟩ := Option.bind_eq_some_iff.mp h
  refine ⟨e, List.mem_of_find?_eq_some hfind, by simpa using List.find?_some hfind, ?_⟩
  unfold disclosureOf at hvalue
  cases hp : parseDisclosure f e with
  | error => rw [hp] at hvalue; cases hvalue
  | ok => rw [hp] at hvalue; exact congrArg Except.ok (Option.some.inj hvalue)

/-- Each disclosure can be read, and no two have one digest. -/
structure Readable (f : Formats) (encoded : List String) : Prop where
  parsed : ∀ e ∈ encoded, ∃ d, parseDisclosure f e = .ok d
  nodup : (encoded.map (digest f)).Nodup

section

variable (h : Readable f encoded)

include h

theorem Readable.perm (hp : encoded'.Perm encoded) : Readable f encoded' :=
  ⟨fun e he => h.parsed e (hp.mem_iff.mp he), (hp.map (digest f)).nodup_iff.mpr h.nodup⟩

variable {e : String}

theorem Readable.find? (he : e ∈ encoded) : (encoded.find? fun e' => digest f e' = digest f e) = some e := by
  have hsome : (encoded.find? fun e' => digest f e' = digest f e).isSome = true :=
    List.find?_isSome.mpr ⟨e, he, decide_eq_true rfl⟩
  obtain ⟨e', hfind⟩ := Option.isSome_iff_exists.mp hsome
  have heq : digest f e' = digest f e := by simpa using List.find?_some hfind
  rw [hfind, List.inj_on_of_nodup_map h.nodup (List.mem_of_find?_eq_some hfind) he heq]

theorem Readable.map_digest (he : e ∈ encoded) : disclosureMap f encoded (digest f e) = disclosureOf f e := by
  rw [disclosureMap, h.find? he, Option.bind_some]

/-- The order of the disclosures does not matter for what digests stand for. -/
theorem Readable.map_perm (hp : encoded'.Perm encoded) : disclosureMap f encoded' = disclosureMap f encoded := by
  funext x
  by_cases hx : ∃ e ∈ encoded, digest f e = x
  · obtain ⟨e, he, rfl⟩ := hx
    rw [h.map_digest he, (h.perm hp).map_digest (hp.mem_iff.mpr he)]
  have hnone : ∀ l : List String, l.Perm encoded → disclosureMap f l x = none := by
    intro l hl
    have hfind : (l.find? fun e => digest f e = x) = none := by
      refine List.find?_eq_none.mpr fun e he heq => hx ⟨e, hl.mem_iff.mp he, by simpa using heq⟩
    rw [disclosureMap, hfind, Option.bind_none]
  rw [hnone _ hp, hnone _ (.refl encoded)]

end

theorem named_disclosureMap (f : Formats) (encoded : List String) : Named (disclosureMap f encoded) := by
  intro x d name hx hname
  obtain ⟨e, -, -, hp⟩ := disclosureMap_eq_some hx
  unfold parseDisclosure at hp
  split at hp
  · cases hp
    cases hname
  · split_ifs at hp with hmark
    cases hp
    cases hname
    simpa using hmark
  · cases hp

theorem readDisclosures_spec : ∀ {t : DisclosureTable}, encoded.foldlM (addDisclosure f) t = .ok t' →
    Readable f encoded ∧ (∀ e ∈ encoded, digest f e ∉ t)
      ∧ ∀ x, t'.lookup x = (disclosureMap f encoded x).or (t.lookup x) := by
  induction encoded with
  | nil =>
    intro t h
    obtain rfl := pure_eq_ok.mp h
    exact ⟨⟨by simp, List.nodup_nil⟩, by simp, fun x => rfl⟩
  | cons e rest ih =>
    intro t h
    obtain ⟨t₁, hadd, hrest⟩ := of_bind h
    obtain ⟨d, hparse, hadd⟩ := of_bind hadd
    split_ifs at hadd with hnew
    cases hadd
    obtain ⟨hread, hother, hlookup⟩ := ih hrest
    have hfresh : digest f e ∉ rest.map (digest f) := by
      intro hmem
      obtain ⟨e', he', heq⟩ := List.mem_map.mp hmem
      exact hother e' he' (Finmap.mem_insert.mpr (.inl heq))
    refine ⟨⟨?_, List.nodup_cons.mpr ⟨hfresh, hread.nodup⟩⟩, ?_, fun x => ?_⟩
    · intro e' he'
      rcases List.mem_cons.mp he' with rfl | he'
      · exact ⟨d, hparse⟩
      · exact hread.parsed e' he'
    · intro e' he'
      rcases List.mem_cons.mp he' with rfl | he'
      · exact hnew
      · exact fun hmem => hother e' he' (Finmap.mem_insert.mpr (.inr hmem))
    · rw [hlookup x]
      by_cases hx : digest f e = x
      · subst hx
        have hnone : disclosureMap f rest (digest f e) = none := by
          have hfind : (rest.find? fun e' => digest f e' = digest f e) = none :=
            List.find?_eq_none.mpr fun e' he' heq => hfresh (List.mem_map.mpr ⟨e', he', by simpa using heq⟩)
          rw [disclosureMap, hfind, Option.bind_none]
        have hhead : disclosureMap f (e :: rest) (digest f e) = some d := by
          rw [disclosureMap, List.find?_cons_of_pos (by simp), Option.bind_some, disclosureOf, hparse]
          rfl
        rw [hnone, hhead, Finmap.lookup_insert]
        rfl
      · have htail : disclosureMap f (e :: rest) x = disclosureMap f rest x := by
          rw [disclosureMap, List.find?_cons_of_neg (by simpa using hx), disclosureMap]
        rw [htail, Finmap.lookup_insert_of_ne _ (Ne.symm hx)]

theorem readDisclosures_of_readable (h : Readable f encoded) : ∀ {t : DisclosureTable},
    (∀ e ∈ encoded, digest f e ∉ t) → ∃ t', encoded.foldlM (addDisclosure f) t = .ok t' := by
  induction encoded with
  | nil => exact fun {t} _ => ⟨t, rfl⟩
  | cons e rest ih =>
    intro t hother
    obtain ⟨d, hparse⟩ := h.parsed e (.head _)
    obtain ⟨hfresh, hnodup⟩ := List.nodup_cons.mp h.nodup
    have hadd : addDisclosure f t e = .ok (t.insert (digest f e) d) := by
      simp only [addDisclosure, hparse, bind, Except.bind]
      rw [if_neg (hother e List.mem_cons_self)]
    have hrest : ∀ e' ∈ rest, digest f e' ∉ t.insert (digest f e) d := by
      intro e' he' hmem
      rcases Finmap.mem_insert.mp hmem with heq | hmem
      · exact hfresh (heq ▸ List.mem_map_of_mem he')
      · exact hother e' (.tail e he') hmem
    obtain ⟨t', ht'⟩ := ih ⟨fun e' he' => h.parsed e' (.tail e he'), hnodup⟩ hrest
    refine ⟨t', ?_⟩
    rw [List.foldlM_cons, hadd]
    exact ht'

end Read

/-! ## Result -/

section Result

variable {f : Formats} {payload result : Json} {encoded encoded' : List String}

/-- A digest that stands in the payload, or in a disclosure with such a digest. -/
inductive Reachable (f : Formats) (payload : Json) (encoded : List String) : String → Prop
  | payload {x} : x ∈ references payload → Reachable f payload encoded x
  | nested {e x d} : e ∈ encoded → Reachable f payload encoded (digest f e) →
      parseDisclosure f e = .ok d → x ∈ references d.value → Reachable f payload encoded x

/-- The digests of the payload and of the disclosures, one by one. -/
def occurrences (f : Formats) (payload : Json) (encoded : List String) : List String :=
  references payload ++ encoded.flatMap fun e => debtOf (disclosureOf f e)

/-- A claim or, without a name, an array element of a value. -/
inductive Occurs (doc : Json) : Option String → Json → Prop
  | member {members name v} :
      doc.Within (.obj members) → (name, v) ∈ members → Occurs doc (some name) v
  | element {items v} : doc.Within (.arr items) → v ∈ items → Occurs doc none v

/-- A claim or element of the payload, of a disclosed value, or one that is disclosed. -/
def Source (f : Formats) (payload : Json) (encoded : List String) (name : Option String) (v : Json) : Prop :=
  Occurs payload name v ∨ ∃ e ∈ encoded, ∃ d, parseDisclosure f e = .ok d
    ∧ (Occurs d.value name v ∨ (d.name = name ∧ d.value = v))

/-- Processing of the disclosures of a payload is exact. -/
structure DisclosuresExact (f : Formats) (payload : Json) (encoded : List String) : Prop where
  /-- On success each disclosure is reached, and its digest occurs once. -/
  once : ∀ result, processDisclosures f payload encoded = .ok result → ∀ e ∈ encoded,
    Reachable f payload encoded (digest f e) ∧ (occurrences f payload encoded).count (digest f e) = 1
  /-- Each claim and element of the result is one of the payload or of a disclosure, with the digests in it
  replaced. -/
  sources : ∀ result, processDisclosures f payload encoded = .ok result → ∀ name v, Occurs result name v →
    ∃ u n, Source f payload encoded name u ∧ v = substitute (disclosureMap f encoded) n u
  unmarked : ∀ result, processDisclosures f payload encoded = .ok result → Unmarked result
  order : ∀ result, processDisclosures f payload encoded = .ok result →
    ∀ encoded', encoded'.Perm encoded → processDisclosures f payload encoded' = .ok result
  unreferenced : ∀ e ∈ encoded, ¬ Reachable f payload encoded (digest f e) →
    ∃ error, processDisclosures f payload encoded = .error error
  /-- A digest that occurs twice, in the payload and in reachable disclosures. -/
  twice : ∀ e ∈ encoded, ∀ reached, reached.Sublist encoded →
    (∀ e' ∈ reached, Reachable f payload encoded (digest f e')) →
    2 ≤ (occurrences f payload reached).count (digest f e) →
    ∃ error, processDisclosures f payload encoded = .error error

theorem references_erase (payload : Json) : references (payload.erase "_sd_alg") = references payload := by
  cases payload with
  | obj members =>
    simp only [Json.erase, references]
    have hsd : sdDigests (members.filter fun m => m.1 ≠ "_sd_alg") = sdDigests members := by
      have hget := Json.get?_erase_of_ne (show "_sd" ≠ "_sd_alg" by decide) (.obj members)
      simp only [Json.erase] at hget
      simp only [sdDigests, hget]
    rw [hsd, memberReferences_filter rfl]
  | null | bool _ | num _ | real _ _ | str _ | arr _ => rfl

/-- What a successful processing has done. -/
structure Processed (f : Formats) (payload : Json) (encoded : List String) (result : Json) : Prop where
  readable : Readable f encoded
  value : result = substitute (disclosureMap f encoded) maxLevels (payload.erase "_sd_alg")
  unmarked : Unmarked result
  met : ∃ met : List String, met.Nodup ∧ (∀ e ∈ encoded, digest f e ∈ met)
    ∧ (∀ x, met.count x = (references payload).count x + (disclosed (disclosureMap f encoded) met).count x)
    ∧ ∀ P, (∀ x ∈ references payload, P x) → Closed (disclosureMap f encoded) P → ∀ x ∈ met, P x

theorem processed_of_ok (h : processDisclosures f payload encoded = .ok result) :
    Processed f payload encoded result := by
  unfold processDisclosures at h
  split_ifs at h
  obtain ⟨t, hread, h⟩ := of_bind h
  obtain ⟨expanded, hexpand, h⟩ := of_bind h
  split_ifs at h with hempty
  cases h
  obtain ⟨hreadable, -, hlookup⟩ := readDisclosures_spec hread
  have htable : ∀ x, t.lookup x = disclosureMap f encoded x := by
    intro x
    rw [hlookup x, Finmap.lookup_empty, Option.or_none]
  have hholds : Holds (disclosureMap f encoded) ⟨t, []⟩ := ⟨fun x => by simpa using htable x, List.nodup_nil⟩
  have he := expandDisclosures_spec (named_disclosureMap f encoded) maxLevels hholds hexpand
  obtain ⟨met, hseen, hcount, hclosed⟩ := he.meets.met
  rw [references_erase] at hcount hclosed
  have hmet : expanded.2.seen = met := by rw [hseen]; exact List.append_nil met
  refine ⟨hreadable, he.value, he.unmarked, met, hmet ▸ he.meets.holds.nodup, fun e hmem => ?_, fun x => ?_,
    fun P hP hD => (hclosed P hP hD).1⟩
  · -- The table is empty, so the digest of each disclosure was met.
    by_contra hnot
    obtain ⟨d, hparse⟩ := hreadable.parsed e hmem
    have hleft := he.meets.holds.left (digest f e)
    rw [hmet, if_neg hnot, hreadable.map_digest hmem, disclosureOf, hparse] at hleft
    have hin : digest f e ∈ expanded.2.disclosures.keys := Finmap.mem_keys.mpr (Finmap.mem_of_lookup_eq_some hleft)
    rw [not_not.mp hempty] at hin
    exact Finset.notMem_empty _ hin
  · simpa using hcount x

/-- The digests that were met and stand for something are those of the disclosures. -/
theorem count_disclosed (h : Readable f encoded) {met : List String} (hnodup : met.Nodup)
    (hall : ∀ e ∈ encoded, digest f e ∈ met) (x : String) : (disclosed (disclosureMap f encoded) met).count x
      = (encoded.flatMap fun e => debtOf (disclosureOf f e)).count x := by
  have hperm : (met.filter fun y => (disclosureMap f encoded y).isSome).Perm (encoded.map (digest f)) := by
    refine (List.perm_ext_iff_of_nodup (hnodup.filter _) h.nodup).mpr fun y => ?_
    rw [List.mem_filter]
    constructor
    · rintro ⟨-, hsome⟩
      obtain ⟨d, hd⟩ := Option.isSome_iff_exists.mp hsome
      obtain ⟨e, he, rfl, -⟩ := disclosureMap_eq_some hd
      exact List.mem_map_of_mem he
    · intro hy
      obtain ⟨e, he, rfl⟩ := List.mem_map.mp hy
      obtain ⟨d, hparse⟩ := h.parsed e he
      refine ⟨hall e he, ?_⟩
      rw [h.map_digest he, disclosureOf, hparse]
      rfl
  have hfilter : disclosed (disclosureMap f encoded) met
      = (met.filter fun y => (disclosureMap f encoded y).isSome).flatMap fun y =>
      debtOf (disclosureMap f encoded y) := by
    clear hperm hall hnodup
    induction met with
    | nil => rfl
    | cons y met ih =>
      cases hy : disclosureMap f encoded y with
      | none =>
        rw [List.filter_cons_of_neg (by simp [hy]), ← ih]
        simp [disclosed, hy]
      | some =>
        rw [List.filter_cons_of_pos (by simp [hy]), List.flatMap_cons, ← ih]
        simp [disclosed, debtOf, hy]
  have hmap : (encoded.map (digest f)).flatMap (fun y => debtOf (disclosureMap f encoded y))
      = encoded.flatMap fun e => debtOf (disclosureOf f e) := by
    rw [List.flatMap_map]
    exact List.flatMap_congr fun e he => by rw [h.map_digest he]
  rw [hfilter, (hperm.flatMap_right _).count_eq, hmap]

theorem closed_reachable (f : Formats) (payload : Json) (encoded : List String) :
    Closed (disclosureMap f encoded) (Reachable f payload encoded) := by
  intro x d hx hd y hy
  obtain ⟨e, he, rfl, hparse⟩ := disclosureMap_eq_some hd
  exact .nested he hx hparse hy

theorem once_of_processed (h : Processed f payload encoded result) {e : String} (he : e ∈ encoded) :
    Reachable f payload encoded (digest f e) ∧ (occurrences f payload encoded).count (digest f e) = 1 := by
  obtain ⟨met, hnodup, hall, hcount, hclosed⟩ := h.met
  refine ⟨hclosed _ (fun x => .payload) (closed_reachable f payload encoded) _ (hall e he), ?_⟩
  have hone : met.count (digest f e) = 1 := List.count_eq_one_of_mem hnodup (hall e he)
  rw [hcount, count_disclosed h.readable hnodup hall] at hone
  rw [occurrences, List.count_append]
  exact hone

/-! ## Sources -/

variable {D : String → Option Disclosure} {v : Json} {name : Option String}

theorem mem_substituteMembers {members : List (String × Json)} {m : String × Json}
    (h : m ∈ substituteMembers D members) : m ∈ members ∨ ∃ x d, D x = some d ∧ d.name = some m.1
      ∧ d.value = m.2 := by
  have hfold : ∀ digests : List String, ∀ acc, m ∈ digests.foldl (substituteMember D) acc →
      m ∈ acc ∨ ∃ x d, D x = some d ∧ d.name = some m.1 ∧ d.value = m.2 := by
    intro digests
    induction digests with
    | nil => exact fun acc hm => .inl hm
    | cons x digests ih =>
      intro acc hm
      rcases ih _ hm with hm | hm
      · unfold substituteMember at hm
        split at hm
        · rename_i name value hx
          rcases mem_insertMember.mp hm with rfl | hm
          · exact .inr ⟨x, _, hx, rfl, rfl⟩
          · exact .inl hm
        · exact .inl hm
      · exact .inr hm
  rcases hfold _ _ h with hm | hm
  · exact .inl (List.mem_filter.mp hm).1
  · exact .inr hm

theorem elementOf_eq_some {item : Json} (h : elementOf D item = some v) :
    v = item ∨ ∃ x d, D x = some d ∧ d.name = none ∧ d.value = v := by
  unfold elementOf at h
  split at h
  · exact .inl (Option.some.inj h).symm
  split at h
  · rename_i value hx
    exact .inr ⟨_, _, hx, rfl, Option.some.inj h⟩
  · cases h

variable {u : Json}

theorem occurs_cases (h : Occurs v name u) :
    (∃ members n, v = .obj members ∧ name = some n ∧ (n, u) ∈ members)
      ∨ (∃ items, v = .arr items ∧ name = none ∧ u ∈ items) ∨ ∃ c ∈ v.children, Occurs c name u := by
  cases h with
  | member hw hm =>
    cases hw with
    | refl => exact .inl ⟨_, _, rfl, rfl, hm⟩
    | child hc hw => exact .inr (.inr ⟨_, hc, .member hw hm⟩)
  | element hw hm =>
    cases hw with
    | refl => exact .inr (.inl ⟨_, rfl, rfl, hm⟩)
    | child hc hw => exact .inr (.inr ⟨_, hc, .element hw hm⟩)

theorem occurs_child {c : Json} (hc : c ∈ v.children) (h : Occurs c name u) : Occurs v name u := by
  cases h with
  | member hw hm => exact .member (.child hc hw) hm
  | element hw hm => exact .element (.child hc hw) hm

theorem occurs_substitute {S : Option String → Json → Prop}
    (hD : ∀ x d, D x = some d → S d.name d.value ∧ ∀ name u, Occurs d.value name u → S name u) (n : Nat) :
    ∀ {v : Json}, (∀ name u, Occurs v name u → S name u) → ∀ {name : Option String} {v' : Json},
      Occurs (substitute D n v) name v' → ∃ u k, S name u ∧ v' = substitute D k u := by
  induction n with
  | zero => exact fun hv name v' h => ⟨v', 0, hv _ _ h, rfl⟩
  | succ n ih =>
    intro v hv name v' h
    cases v with
    | obj members =>
      -- A member is one of the object or one that a digest of it stands for; each is taken on one level down.
      have hpart : ∀ m ∈ substituteMembers D members, S (some m.1) m.2
          ∧ ∀ name u, Occurs m.2 name u → S name u := by
        intro m hm
        rcases mem_substituteMembers hm with hm | ⟨x, d, hx, hname, hvalue⟩
        · exact ⟨hv _ _ (.member (.refl _) hm), fun name u hu => hv _ _ (occurs_child (List.mem_map_of_mem hm) hu)⟩
        · obtain ⟨hself, hinner⟩ := hD x d hx
          rw [hname, hvalue] at hself
          exact ⟨hself, hvalue ▸ hinner⟩
      rcases occurs_cases h with ⟨members', name', heq, rfl, hmem⟩ | ⟨items, heq, -⟩ | ⟨c, hc, hin⟩
      · cases heq
        obtain ⟨m, hm, heq⟩ := List.mem_map.mp hmem
        cases heq
        exact ⟨m.2, n, (hpart m hm).1, rfl⟩
      · cases heq
      · obtain ⟨m', hm', rfl⟩ := List.mem_map.mp hc
        obtain ⟨m, hm, rfl⟩ := List.mem_map.mp hm'
        exact ih (hpart m hm).2 hin
    | arr items =>
      have hpart : ∀ u ∈ items.filterMap (elementOf D), S none u ∧ ∀ name w, Occurs u name w → S name w := by
        intro u hu
        obtain ⟨item, hitem, hu⟩ := List.mem_filterMap.mp hu
        rcases elementOf_eq_some hu with rfl | ⟨x, d, hx, hname, hvalue⟩
        · exact ⟨hv _ _ (.element (.refl _) hitem), fun name w hw => hv _ _ (occurs_child hitem hw)⟩
        · obtain ⟨hself, hinner⟩ := hD x d hx
          rw [hname, hvalue] at hself
          exact ⟨hself, hvalue ▸ hinner⟩
      rcases occurs_cases h with ⟨members', name', heq, -⟩ | ⟨items', heq, rfl, hmem⟩ | ⟨c, hc, hin⟩
      · cases heq
      · cases heq
        obtain ⟨u, hu, rfl⟩ := List.mem_map.mp hmem
        exact ⟨u, n, (hpart u hu).1, rfl⟩
      · obtain ⟨u, hu, rfl⟩ := List.mem_map.mp hc
        exact ih (hpart u hu).2 hin
    | null | bool _ | num _ | real _ _ | str _ =>
      rcases occurs_cases h with ⟨_, _, heq, -⟩ | ⟨_, heq, -⟩ | ⟨c, hc, -⟩
      · cases heq
      · cases heq
      · cases hc

theorem occurs_erase {payload : Json} {marker : String} (h : Occurs (payload.erase marker) name v) :
    Occurs payload name v := by
  cases payload with
  | obj members =>
    rcases occurs_cases h with ⟨members', n, heq, rfl, hm⟩ | ⟨_, heq, -⟩ | ⟨c, hc, hin⟩
    · cases heq
      exact .member (.refl _) (List.mem_filter.mp hm).1
    · cases heq
    · obtain ⟨m, hm, rfl⟩ := List.mem_map.mp hc
      exact occurs_child (List.mem_map_of_mem (List.mem_filter.mp hm).1) hin
  | null | bool _ | num _ | real _ _ | str _ | arr _ => exact h

theorem sources_of_processed (h : Processed f payload encoded result) (hv : Occurs result name v) :
    ∃ u n, Source f payload encoded name u ∧ v = substitute (disclosureMap f encoded) n u := by
  rw [h.value] at hv
  refine occurs_substitute (fun x d hx => ?_) maxLevels (fun name u hu => .inl (occurs_erase hu)) hv
  obtain ⟨e, he, -, hparse⟩ := disclosureMap_eq_some hx
  exact ⟨.inr ⟨e, he, d, hparse, .inr ⟨rfl, rfl⟩⟩, fun name u hu => .inr ⟨e, he, d, hparse, .inl hu⟩⟩

/-! ## Order -/

theorem processDisclosures_perm (h : Readable f encoded) (hp : encoded'.Perm encoded) :
    processDisclosures f payload encoded' = processDisclosures f payload encoded := by
  obtain ⟨t, ht⟩ := readDisclosures_of_readable h fun _ _ => Finmap.notMem_empty
  obtain ⟨t', ht'⟩ := readDisclosures_of_readable (h.perm hp) fun _ _ => Finmap.notMem_empty
  have heq : t' = t := by
    refine Finmap.ext_lookup fun x => ?_
    rw [(readDisclosures_spec ht').2.2 x, (readDisclosures_spec ht).2.2 x, h.map_perm hp]
  unfold processDisclosures
  rw [ht, ht', heq]

/-- **Disclosures are processed exactly.** -/
theorem disclosures_exact (f : Formats) (payload : Json) (encoded : List String) :
    DisclosuresExact f payload encoded where
  once := fun _ h _ => once_of_processed (processed_of_ok h)
  sources := fun _ h _ _ => sources_of_processed (processed_of_ok h)
  unmarked := fun _ h => (processed_of_ok h).unmarked
  order := fun _ h _ hp => (processDisclosures_perm (processed_of_ok h).readable hp).trans h
  unreferenced := by
    intro e he hnot
    cases h : processDisclosures f payload encoded with
    | error error => exact ⟨error, rfl⟩
    | ok => exact absurd (once_of_processed (processed_of_ok h) he).1 hnot
  twice := by
    intro e he reached hsub _ htwo
    cases h : processDisclosures f payload encoded with
    | error error => exact ⟨error, rfl⟩
    | ok =>
      have hone := (once_of_processed (processed_of_ok h) he).2
      have hle : (occurrences f payload reached).count (digest f e)
          ≤ (occurrences f payload encoded).count (digest f e) := by
        simp only [occurrences, List.count_append]
        exact Nat.add_le_add_left ((hsub.flatMap _).count_le _) _
      omega

end Result

/-! ## A nested disclosure -/

def nestedFormats : Formats where
  sha256 := fun text => text.toList.map fun c => UInt8.ofNat c.toNat
  serialize := fun _ => []
  parse := fun bytes => match bytes with
    | [1] => some (.arr [.str "salt", .str "address", .obj [("_sd", .arr [.str "QWc"]), ("country", .str "DE")]])
    | [2] => some (.arr [.str "salt", .str "city", .str "Bonn"])
    | [3] => some (.arr [.str "salt", .str "FR"])
    | _ => none

/-- A payload with an address, a list of nationalities and a digest that nothing is presented
for. -/
def nestedPayload : Json :=
  .obj [("_sd", .arr [.str "QVE", .str "decoy"]), ("_sd_alg", .str "sha-256"), ("iss", .str "issuer"),
    ("nationalities", .arr [.obj [("...", .str "QXc")], .str "DE", .obj [("...", .str "other")]])]

theorem disclosures_exact_nested : DisclosuresExact nestedFormats nestedPayload ["Ag", "Aw", "AQ"]
      ∧ (processDisclosures nestedFormats nestedPayload ["Ag", "Aw", "AQ"]).toOption
        = some (.obj [("address", .obj [("city", .str "Bonn"), ("country", .str "DE")]), ("iss", .str "issuer"),
            ("nationalities", .arr [.str "FR", .str "DE"])]) :=
  ⟨disclosures_exact nestedFormats nestedPayload ["Ag", "Aw", "AQ"], by decide +kernel⟩

/-! ## Protected claims -/

section Protected

variable {f : Formats} {payload result : Json} {encoded : List String}
  {members : List (String × Json)} {name : String}
  {step : String → Json → Pending → Except CredentialTrustError (Json × Pending)}

theorem expandMembers_fixed (hstep : ∀ m ∈ members, ∀ st r, step m.1 m.2 st = .ok r → r = (m.2, st)) :
    ∀ {st : Pending} {r : List (String × Json) × Pending}, expandMembers step members st = .ok r →
    r = (members, st) := by
  induction members with
  | nil => exact fun {st} {r} h => (Except.ok.inj h).symm
  | cons m rest ih =>
    intro st r h
    obtain ⟨expanded, hone, h⟩ := of_bind h
    obtain ⟨others, hrest, h⟩ := of_bind h
    obtain rfl := hstep m (.head _) st expanded hone
    obtain rfl := ih (fun m' hm' => hstep m' (.tail m hm')) hrest
    exact (Except.ok.inj h).symm

theorem expandItems_fixed {step : Json → Pending → Except CredentialTrustError (Json × Pending)}
    {items : List Json} (hstep : ∀ v st r, step v st = .ok r → r = (v, st)) :
    ∀ {st : Pending} {r : List Json × Pending}, expandItems false step items st = .ok r → r = (items, st) := by
  induction items with
  | nil => exact fun {st} {r} h => (Except.ok.inj h).symm
  | cons item rest ih =>
    intro st r h
    obtain ⟨disclosed, hone, h⟩ := of_bind h
    unfold discloseItem at hone
    split at hone
    · cases hone
      obtain ⟨expanded, hexpand, h⟩ := of_bind h
      obtain ⟨others, hrest, h⟩ := of_bind h
      obtain rfl := hstep item st expanded hexpand
      obtain rfl := ih hrest
      exact (Except.ok.inj h).symm
    · cases hone

theorem expandDisclosures_fixed (levels : Nat) : ∀ {v : Json} {st : Pending} {r : Json × Pending},
    expandDisclosures levels false false v st = .ok r → r = (v, st) := by
  induction levels with
  | zero => intro v st r h; cases h
  | succ levels ih =>
    intro v st r h
    cases v with
    | obj =>
      simp only [expandDisclosures] at h
      split_ifs at h
      obtain ⟨disclosed, hdisclose, h⟩ := of_bind h
      obtain ⟨expanded, hexpand, h⟩ := of_bind h
      unfold discloseMembers at hdisclose
      split at hdisclose
      · cases hdisclose
        obtain rfl := expandMembers_fixed (fun m _ st r hm => ih hm) hexpand
        exact (Except.ok.inj h).symm
      · cases hdisclose
    | arr =>
      obtain ⟨expanded, hexpand, h⟩ := of_bind h
      obtain rfl := expandItems_fixed (fun _ _ _ => ih) hexpand
      exact (Except.ok.inj h).symm
    | null | bool _ | num _ | real _ _ | str _ => exact (Except.ok.inj h).symm

theorem get?_insertMember {name' : String} (h : name' ≠ name) (value : Json) (members : List (String × Json)) :
    (Json.obj (insertMember name value members)).get? name' = (Json.obj members).get? name' := by
  induction members with
  | nil => simp [insertMember, Json.get?, Ne.symm h]
  | cons m rest ih =>
    simp only [Json.get?] at ih
    unfold insertMember
    split_ifs
    · simp [Json.get?, Ne.symm h]
    simp only [Json.get?, List.find?_cons]
    by_cases hm : m.1 = name'
    · simp [hm]
    · simpa [hm] using ih

theorem get?_discloseFold (hname : alwaysDisclosedVcClaim name = true) {digests : List Json} :
    ∀ {acc r : List (String × Json) × Pending}, digests.foldlM (discloseMember true) acc = .ok r →
      (Json.obj r.1).get? name = (Json.obj acc.1).get? name := by
  induction digests with
  | nil => exact fun {acc} {r} h => by rw [pure_eq_ok.mp h]
  | cons digest digests ih =>
    intro acc r h
    rw [List.foldlM_cons] at h
    obtain ⟨acc', hone, hrest⟩ := of_bind h
    refine (ih hrest).trans ?_
    unfold discloseMember at hone
    split at hone
    · obtain ⟨taken, -, hone⟩ := of_bind hone
      split at hone
      · cases hone
        rfl
      split at hone
      · cases hone
      rename_i disclosedName _
      split_ifs at hone with hprotected
      cases hone
      refine get?_insertMember (fun heq => hprotected ?_) _ _
      rw [← heq, hname]
      rfl
    · cases hone

theorem get?_discloseMembers (hname : alwaysDisclosedVcClaim name = true)
    {st : Pending} {r : List (String × Json) × Pending} (h : discloseMembers true true members st = .ok r) :
    (Json.obj r.1).get? name = (Json.obj members).get? name := by
  unfold discloseMembers at h
  split at h
  · cases h
    rfl
  simp only [Bool.not_true, Bool.false_eq_true, if_false] at h
  split at h
  · refine (get?_discloseFold hname h).trans ?_
    have hne : name ≠ "_sd" := by
      rintro rfl
      exact absurd hname (by decide)
    exact Json.get?_erase_of_ne hne (.obj members)
  · cases h

theorem get?_expandMembers (hstep : ∀ v st r, step name v st = .ok r → r.1 = v) :
    ∀ {st : Pending} {r : List (String × Json) × Pending}, expandMembers step members st = .ok r →
      (Json.obj r.1).get? name = (Json.obj members).get? name := by
  induction members with
  | nil => exact fun {st} {r} h => by rw [← Except.ok.inj h]
  | cons m rest ih =>
    intro st r h
    obtain ⟨expanded, hone, h⟩ := of_bind h
    obtain ⟨others, hrest, h⟩ := of_bind h
    cases h
    have hrest' := ih hrest
    simp only [Json.get?, List.find?_cons] at hrest' ⊢
    by_cases hm : m.1 = name
    · subst hm
      simp [hstep _ _ _ hone]
    · simpa [hm] using hrest'

/-- **Protected claims are those that the issuer signed.** -/
theorem protected_claims_signed (f : Formats) (payload : Json) (encoded : List String)
    (result : Json) (h : processDisclosures f payload encoded = .ok result) (name : String)
    (hname : alwaysDisclosedVcClaim name = true) : result.get? name = payload.get? name := by
  unfold processDisclosures at h
  split_ifs at h with hobject
  obtain ⟨t, -, h⟩ := of_bind h
  obtain ⟨expanded, hexpand, h⟩ := of_bind h
  split_ifs at h
  cases h
  have hne : name ≠ "_sd_alg" := by
    rintro rfl
    exact absurd hname (by decide)
  rw [← Json.get?_erase_of_ne hne payload]
  cases payload with
  | obj =>
    simp only [Json.erase, maxLevels, expandDisclosures] at hexpand ⊢
    split_ifs at hexpand
    obtain ⟨disclosed, hdisclose, hexpand⟩ := of_bind hexpand
    obtain ⟨expanded', hmembers, hexpand⟩ := of_bind hexpand
    cases hexpand
    refine (get?_expandMembers (fun v st r hr => ?_) hmembers).trans (get?_discloseMembers hname hdisclose)
    rw [hname] at hr
    exact congrArg Prod.fst (expandDisclosures_fixed _ hr)
  | null | bool _ | num _ | real _ _ | str _ | arr _ => exact absurd rfl hobject

theorem protected_claims_signed_nested :
    (processDisclosures nestedFormats nestedPayload ["AQ", "Ag"]).toOption.bind
    (·.get? "iss") = some (.str "issuer") := by
  cases h : processDisclosures nestedFormats nestedPayload ["AQ", "Ag"] with
  | error =>
    have hok : (processDisclosures nestedFormats nestedPayload ["AQ", "Ag"]).toOption.isSome = true := by
      decide +kernel
    rw [h] at hok
    cases hok
  | ok result =>
    exact protected_claims_signed nestedFormats nestedPayload ["AQ", "Ag"] result h "iss" (by decide)

end Protected

end NazoAuth.SdJwt
