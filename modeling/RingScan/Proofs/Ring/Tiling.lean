import Mathlib

set_option autoImplicit false

/-! # Tilings

Pieces *tile* a set if no two of them meet and all of them together are the set. The pieces are
given as a list with a map that says which set a piece is, so that one piece which is there twice
only tiles if it is empty. Tilings are refined piece by piece (`Tiles.flatMap`), cut to a part
(`Tiles.inter`), and do not depend on the order of the pieces (`Tiles.perm`). -/

namespace RingScan

variable {α ι κ : Type}

/-- Pieces of which no two meet and which together are `S`. -/
structure Tiles (f : ι → Set α) (xs : List ι) (S : Set α) : Prop where
  apart : xs.Pairwise fun x y => Disjoint (f x) (f y)
  union : ⋃ x ∈ xs, f x = S

namespace Tiles

variable {f : ι → Set α} {g : κ → Set α} {xs : List ι} {S : Set α}

theorem subset (h : Tiles f xs S) {x : ι} (hx : x ∈ xs) : f x ⊆ S := by
  rw [← h.union]
  exact Set.subset_biUnion_of_mem (u := f) hx

theorem nil : Tiles f [] ∅ := ⟨List.Pairwise.nil, by simp⟩

/-- Of pieces that are not empty, there are none just for nothing. -/
theorem eq_nil_iff (h : Tiles f xs S) (hne : ∀ x ∈ xs, (f x).Nonempty) : xs = [] ↔ S = ∅ := by
  rw [← h.union]
  constructor
  · rintro rfl
    simp
  · intro hempty
    refine List.eq_nil_iff_forall_not_mem.2 fun x hx => ?_
    have hpiece : f x = ∅ := Set.subset_empty_iff.1 (hempty ▸ Set.subset_biUnion_of_mem hx)
    exact (hne x hx).ne_empty hpiece

theorem singleton (x : ι) : Tiles f [x] (f x) := ⟨List.pairwise_singleton _ x, by simp⟩

/-- Two pieces that do not meet tile what they are together. -/
theorem pair {x y : ι} (h : Disjoint (f x) (f y)) : Tiles f [x, y] (f x ∪ f y) :=
  ⟨List.pairwise_pair.2 h, by simp⟩

/-- Pieces that are named in another way tile the same. -/
theorem map_iff {k : κ → ι} {ys : List κ} : Tiles f (ys.map k) S ↔ Tiles (f ∘ k) ys S := by
  constructor
  · exact fun h => ⟨by simpa [List.pairwise_map] using h.apart, by simpa using h.union⟩
  · exact fun h => ⟨List.pairwise_map.2 h.apart, by simpa using h.union⟩

theorem congr {f' : ι → Set α} (h : Tiles f xs S) (hf : ∀ x ∈ xs, f' x = f x) :
    Tiles f' xs S := by
  constructor
  · refine h.apart.imp_of_mem fun {x y} hx hy hxy => ?_
    rw [hf x hx, hf y hy]
    exact hxy
  · rw [← h.union]
    exact Set.iUnion₂_congr hf

/-- The order of the pieces does not matter. -/
theorem perm {ys : List ι} (h : Tiles f xs S) (hp : xs.Perm ys) : Tiles f ys S := by
  constructor
  · exact (hp.pairwise_iff fun hxy => Disjoint.symm hxy).1 h.apart
  · rw [← h.union]
    ext t
    simp [hp.mem_iff]

/-- Every piece may be tiled in turn. -/
theorem flatMap {k : ι → List κ} (h : Tiles f xs S) (hk : ∀ x ∈ xs, Tiles g (k x) (f x)) :
    Tiles g (xs.flatMap k) S := by
  constructor
  · refine List.pairwise_flatMap.2 ⟨fun x hx => (hk x hx).apart, ?_⟩
    refine h.apart.imp_of_mem fun {x y} hx hy hxy => ?_
    intro a ha b hb
    exact hxy.mono ((hk x hx).subset ha) ((hk y hy).subset hb)
  · rw [← h.union]
    ext t
    simp only [List.mem_flatMap, Set.mem_iUnion, exists_prop]
    constructor
    · rintro ⟨b, ⟨x, hx, hb⟩, ht⟩
      exact ⟨x, hx, (hk x hx).subset hb ht⟩
    · rintro ⟨x, hx, ht⟩
      rw [← (hk x hx).union, Set.mem_iUnion₂] at ht
      obtain ⟨b, hb, ht⟩ := ht
      exact ⟨b, ⟨x, hx, hb⟩, ht⟩

/-- The same for tilings that are listed beside the pieces. -/
theorem flatten {yss : List (List κ)} (h : Tiles f xs S)
    (hyss : List.Forall₂ (fun x ys => Tiles g ys (f x)) xs yss) : Tiles g yss.flatten S := by
  obtain ⟨hlength, hzip⟩ := List.forall₂_iff_zip.1 hyss
  have hpairs : Tiles (f ∘ Prod.fst) (xs.zip yss) S := by
    rwa [← map_iff, List.map_fst_zip hlength.le]
  have hflat : (xs.zip yss).flatMap Prod.snd = yss.flatten := by
    rw [List.flatMap_def, List.map_snd_zip hlength.ge]
  rw [← hflat]
  exact hpairs.flatMap fun x hx => hzip hx

/-- A tiling may be cut to a part of what it tiles. -/
theorem inter (h : Tiles f xs S) (T : Set α) : Tiles (fun x => f x ∩ T) xs (S ∩ T) := by
  constructor
  · exact h.apart.imp fun hxy => hxy.mono Set.inter_subset_left Set.inter_subset_left
  · rw [← h.union, Set.iUnion₂_inter]

/-- Every point is in one piece and in no other one. -/
theorem existsUnique (h : Tiles f xs S) {t : α} (ht : t ∈ S) :
    ∃! i : Fin xs.length, t ∈ f xs[i] := by
  rw [← h.union, Set.mem_iUnion₂] at ht
  obtain ⟨x, hx, ht⟩ := ht
  obtain ⟨i, hi, rfl⟩ := List.mem_iff_getElem.1 hx
  refine ⟨⟨i, hi⟩, ht, fun j hj => ?_⟩
  by_contra hne
  have hapart := List.pairwise_iff_getElem.1 h.apart
  rcases Nat.lt_or_gt_of_ne (fun heq => hne (Fin.ext heq)) with hlt | hlt
  · exact Set.disjoint_left.1 (hapart _ _ j.2 hi hlt) hj ht
  · exact Set.disjoint_left.1 (hapart _ _ hi j.2 hlt) ht hj

end Tiles

/-- Pieces that are listed for each of some sets make up the sets together. -/
theorem iUnion_flatten {f : ι → Set α} {g : κ → Set α} {xs : List ι} {yss : List (List κ)}
    (h : List.Forall₂ (fun x ys => ⋃ y ∈ ys, g y = f x) xs yss) :
    ⋃ y ∈ yss.flatten, g y = ⋃ x ∈ xs, f x := by
  induction h with
  | nil => simp
  | cons hx _ ih =>
    simp only [List.flatten_cons, List.mem_append, List.mem_cons, Set.iUnion_or,
      Set.iUnion_union_distrib, Set.iUnion_iUnion_eq_left, hx, ih]

end RingScan
