import NazoAuth.Lib.Except
import Mathlib.Data.List.Forall2

/-!
# Lists whose elements change in place and that grow at the end

`Evolves R F xs ys` says that `ys` is `xs` with each element changed as `R` allows, followed by new
elements that satisfy `F`. One step of a computation on such a list is a change of all elements
(`Evolves.map`, `Evolves.mapM`), of one element (`Evolves.modify`) or a new element
(`Evolves.push`); steps compose (`Evolves.trans`).
-/

namespace NazoAuth.Lib

variable {ε α κ : Type} {R : α → α → Prop} {F : α → Prop} {xs ys zs : List α}

def Evolves (R : α → α → Prop) (F : α → Prop) (xs ys : List α) : Prop :=
  ∃ kept new, ys = kept ++ new ∧ List.Forall₂ R xs kept ∧ ∀ x ∈ new, F x

theorem forall₂_trans (hR : ∀ a b c, R a b → R b c → R a c) (h : List.Forall₂ R xs ys)
    (h' : List.Forall₂ R ys zs) : List.Forall₂ R xs zs := by
  induction h generalizing zs with
  | nil => exact h'
  | cons hab _ ih =>
    cases h' with
    | cons hbc hrest => exact .cons (hR _ _ _ hab hbc) (ih hrest)

section Pairs

variable {β : Type} {S : α → β → Prop} {bs : List β}

/-- An element of the second list comes from one of the first. -/
theorem exists_of_forall₂_right (h : List.Forall₂ S xs bs) : ∀ b ∈ bs, ∃ x ∈ xs, S x b := by
  induction h with
  | nil => exact nofun
  | cons hab _ ih =>
    intro b hb
    rcases List.mem_cons.mp hb with rfl | hb
    · exact ⟨_, List.mem_cons_self, hab⟩
    · obtain ⟨x, hx, hS⟩ := ih b hb
      exact ⟨x, .tail _ hx, hS⟩

theorem exists_of_forall₂_left (h : List.Forall₂ S xs bs) : ∀ x ∈ xs, ∃ b ∈ bs, S x b :=
  exists_of_forall₂_right h.flip

theorem forall₂_getElem? (h : List.Forall₂ S xs bs) {i : Nat} {b : β} (hb : bs[i]? = some b) :
      ∃ x, xs[i]? = some x ∧ S x b := by
  induction h generalizing i with
  | nil => cases hb
  | cons hab _ ih =>
    cases i with
    | zero => exact ⟨_, rfl, Option.some.inj hb ▸ hab⟩
    | succ => exact ih hb

theorem mapM_eq_ok {f : α → Except ε β} (h : xs.mapM f = .ok bs) :
    List.Forall₂ (fun x b => f x = .ok b) xs bs := by
  induction xs generalizing bs with
  | nil =>
    obtain rfl := pure_eq_ok.mp h
    exact .nil
  | cons x xs ih =>
    rw [List.mapM_cons] at h
    obtain ⟨b, hb, h⟩ := of_bind h
    obtain ⟨bs', hbs, h⟩ := of_bind h
    obtain rfl := pure_eq_ok.mp h
    exact .cons hb (ih hbs)

end Pairs

namespace Evolves

theorem refl (hR : ∀ a, R a a) (xs : List α) : Evolves R F xs xs :=
  ⟨xs, [], (List.append_nil xs).symm, List.forall₂_same.mpr fun x _ => hR x, nofun⟩

theorem trans (hR : ∀ a b c, R a b → R b c → R a c) (hF : ∀ a b, F a → R a b → F b)
    (h : Evolves R F xs ys) (h' : Evolves R F ys zs) : Evolves R F xs zs := by
  obtain ⟨kept, new, rfl, hkept, hnew⟩ := h
  obtain ⟨kept', new', rfl, hkept', hnew'⟩ := h'
  have hfirst := List.forall₂_take kept.length hkept'
  have hsecond := List.forall₂_drop kept.length hkept'
  rw [List.take_left] at hfirst
  rw [List.drop_left] at hsecond
  refine ⟨kept'.take kept.length, kept'.drop kept.length ++ new', ?_, forall₂_trans hR hkept hfirst,
    fun x hx => ?_⟩
  · rw [← List.append_assoc, List.take_append_drop]
  rcases List.mem_append.mp hx with hx | hx
  · obtain ⟨y, hy, hyx⟩ := exists_of_forall₂_right hsecond x hx
    exact hF y x (hnew y hy) hyx
  · exact hnew' x hx

theorem push {x : α} (hR : ∀ a, R a a) (hx : F x) : Evolves R F xs (xs ++ [x]) :=
  ⟨xs, [x], rfl, List.forall₂_same.mpr fun y _ => hR y, fun _ hy => List.mem_singleton.mp hy ▸ hx⟩

theorem map {f : α → α} (h : ∀ x ∈ xs, R x (f x)) : Evolves R F xs (xs.map f) :=
  ⟨xs.map f, [], (List.append_nil _).symm, List.forall₂_map_right_iff.mpr (List.forall₂_same.mpr h),
    by simp⟩

theorem mapM {f : α → Except ε α} (h : xs.mapM f = .ok ys) (hf : ∀ x y, f x = .ok y → R x y) : Evolves R F xs ys :=
  ⟨ys, [], (List.append_nil _).symm, (mapM_eq_ok h).imp hf, nofun⟩

theorem modify {i : Nat} {f : α → α} (hR : ∀ a, R a a) (hf : ∀ x, xs[i]? = some x → R x (f x)) :
    Evolves R F xs (xs.modify i f) := by
  refine ⟨xs.modify i f, [], (List.append_nil _).symm, ?_, nofun⟩
  induction xs generalizing i with
  | nil => cases i <;> exact .nil
  | cons x xs ih =>
    cases i with
    | zero => exact .cons (hf x rfl) (List.forall₂_same.mpr fun y _ => hR y)
    | succ => exact .cons (hR x) (ih hf)

theorem exists_of_mem (h : Evolves R F xs ys) {x : α} (hx : x ∈ xs) : ∃ y ∈ ys, R x y := by
  obtain ⟨kept, new, rfl, hkept, -⟩ := h
  obtain ⟨y, hy, hR⟩ := exists_of_forall₂_left hkept x hx
  exact ⟨y, List.mem_append_left _ hy, hR⟩

theorem old_or_new (h : Evolves R F xs ys) {y : α} (hy : y ∈ ys) : (∃ x ∈ xs, R x y) ∨ F y := by
  obtain ⟨kept, new, rfl, hkept, hnew⟩ := h
  rcases List.mem_append.mp hy with hy | hy
  · exact .inl (exists_of_forall₂_right hkept y hy)
  · exact .inr (hnew y hy)

end Evolves

end NazoAuth.Lib
