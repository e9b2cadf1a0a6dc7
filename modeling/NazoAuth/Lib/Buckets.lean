import Mathlib.Data.Finset.Basic
import Mathlib.Data.Finset.Lattice.Lemmas
import Mathlib.Data.List.TakeWhile

/-!
# Buckets — a set of keys with an index by expiry

Keys that are remembered until they expire: the set of the keys, and an ordered map from expiries to
the keys that expire then. Keys leave through the front of the map, so the two hold the same keys
(`Buckets.Exact`).
-/

namespace NazoAuth.Lib

structure Buckets (κ : Type) where
  keys : Finset κ
  /-- In the order of the expiries. -/
  expirations : List (Int × List κ)

variable {κ : Type} {b : Buckets κ} {key : κ} {now expiresAt : Int}

/-- The keys of the map, each with its expiry. -/
def entries (expirations : List (Int × List κ)) : List (Int × κ) :=
  expirations.flatMap fun bucket => bucket.2.map fun key => (bucket.1, key)

theorem map_snd_entries (expirations : List (Int × List κ)) :
    (entries expirations).map Prod.snd = expirations.flatMap Prod.snd := by
  simp [entries, List.map_flatMap]

/-- The key joins the bucket of its expiry, which is made if it is not there. -/
def push (expiresAt : Int) (key : κ) : List (Int × List κ) → List (Int × List κ)
  | [] => [(expiresAt, [key])]
  | (e, bucket) :: rest =>
    if expiresAt < e then (expiresAt, [key]) :: (e, bucket) :: rest
    else if e < expiresAt then (e, bucket) :: push expiresAt key rest
    else (e, bucket ++ [key]) :: rest

theorem entries_push (expiresAt : Int) (key : κ) (expirations : List (Int × List κ)) :
    (entries (push expiresAt key expirations)).Perm ((expiresAt, key) :: entries expirations) := by
  induction expirations with
  | nil => exact .refl _
  | cons bucket rest ih =>
    unfold push
    split_ifs with hlt hgt
    · exact .refl _
    · exact (ih.append_left _).trans List.perm_middle
    · obtain rfl : bucket.1 = expiresAt := by omega
      simp only [entries, List.flatMap_cons, List.map_append, List.map_cons, List.map_nil, List.append_assoc]
      exact List.perm_middle

variable [DecidableEq κ]

/-- The first bucket goes, with its keys, as long as it is over. -/
def Buckets.dropExpired (now : Int) (b : Buckets κ) : Buckets κ where
  keys := ((b.expirations.takeWhile fun bucket => bucket.1 ≤ now).flatMap Prod.snd).foldl Finset.erase b.keys
  expirations := b.expirations.dropWhile fun bucket => bucket.1 ≤ now

/-- The set is the union of the buckets, and no key is in two of them. -/
structure Buckets.Exact (b : Buckets κ) : Prop where
  distinct : (b.expirations.flatMap Prod.snd).Nodup
  union : b.keys = (b.expirations.flatMap Prod.snd).toFinset

theorem foldl_erase (gone : List κ) (keys : Finset κ) : gone.foldl Finset.erase keys = keys \ gone.toFinset := by
  induction gone generalizing keys with
  | nil => simp
  | cons key gone ih =>
    rw [List.foldl_cons, ih]
    ext k
    simp only [Finset.mem_sdiff, Finset.mem_erase, List.toFinset_cons, Finset.mem_insert]
    tauto

namespace Buckets.Exact

theorem dropExpired (h : b.Exact) : (b.dropExpired now).Exact := by
  have hsplit : b.expirations.flatMap Prod.snd = (b.expirations.takeWhile fun bucket => bucket.1 ≤ now).flatMap
      Prod.snd ++ (b.dropExpired now).expirations.flatMap Prod.snd := by
    rw [← List.flatMap_append, Buckets.dropExpired, List.takeWhile_append_dropWhile]
  have hdistinct := h.distinct
  rw [hsplit] at hdistinct
  obtain ⟨-, hrest, hdisjoint⟩ := List.nodup_append.mp hdistinct
  refine ⟨hrest, (foldl_erase _ _).trans ?_⟩
  rw [h.union, hsplit, List.toFinset_append, Finset.union_sdiff_cancel_left]
  exact List.disjoint_toFinset_iff_disjoint.mpr fun k hk hk' => hdisjoint k hk k hk' rfl

/-- A key that is not there is added. -/
theorem insert (h : b.Exact) (hkey : key ∉ b.keys) :
    Buckets.Exact ⟨Insert.insert key b.keys, push expiresAt key b.expirations⟩ := by
  have hperm := (entries_push expiresAt key b.expirations).map Prod.snd
  rw [List.map_cons, map_snd_entries, map_snd_entries] at hperm
  refine ⟨hperm.nodup_iff.mpr (List.nodup_cons.mpr ⟨fun hmem => hkey ?_, h.distinct⟩), ?_⟩
  · rw [h.union]
    exact List.mem_toFinset.mpr hmem
  · rw [List.toFinset_eq_of_perm _ _ hperm, List.toFinset_cons, h.union]

theorem mem_keys (h : b.Exact) (hmem : (expiresAt, key) ∈ entries b.expirations) : key ∈ b.keys := by
  rw [h.union, ← map_snd_entries]
  exact List.mem_toFinset.mpr (List.mem_map.mpr ⟨_, hmem, rfl⟩)

end Buckets.Exact

/-- A key that is not over stays. -/
theorem mem_entries_dropExpired (h : (expiresAt, key) ∈ entries b.expirations)
    (hnow : now < expiresAt) : (expiresAt, key) ∈ entries (b.dropExpired now).expirations := by
  rw [entries, ← List.takeWhile_append_dropWhile (p := fun bucket : Int × List κ => bucket.1 ≤ now)
    (l := b.expirations), List.flatMap_append] at h
  rcases List.mem_append.mp h with h | h
  · obtain ⟨bucket, hbucket, h⟩ := List.mem_flatMap.mp h
    obtain ⟨k, -, h⟩ := List.mem_map.mp h
    cases h
    have hover := List.mem_takeWhile_imp hbucket
    simp only [decide_eq_true_eq] at hover
    omega
  · exact h

end NazoAuth.Lib
