import RingScan.Text.Surrogate

set_option autoImplicit false

/-! # The order of texts

Texts are in the order of their code points: their first difference tells, and a text comes behind
its beginnings. Halves of pairs are in their places among the characters. This is a linear order,
since no two symbols have one code point. -/

namespace RingScan.Text

/-! ## Code points -/

namespace Surrogate

/-- What can be a symbol: a character, or one behind a mark. -/
inductive IsSymbol : List Char → Prop where
  | plain (c : Char) : IsSymbol [c]
  | marked (d : Char) (h : (marked? d).isSome) : IsSymbol [mark, d]

theorem isSymbol_of_mem {x cs : List Char} (h : x ∈ symbols cs) : IsSymbol x := by
  fun_induction symbols cs with
  | case1 => simp at h
  | case2 c => exact List.mem_singleton.1 h ▸ .plain c
  | case3 c d rest hm ih =>
    rcases List.mem_cons.1 h with rfl | h
    · exact hm.1 ▸ .marked d hm.2
    · exact ih h
  | case4 c d rest _ ih =>
    rcases List.mem_cons.1 h with rfl | h
    · exact .plain c
    · exact ih h

theorem toNat_mark : mark.toNat = 0x10fffe := by decide

/-- What stands behind a mark is known by its code point. -/
theorem marked?_injective {c d : Char} {n : Nat} (hc : marked? c = some n)
    (hd : marked? d = some n) : c = d := by
  by_cases hcm : c = mark <;> by_cases hdm : d = mark <;>
    simp [marked?, half?, toNat_mark, isHalf, hcm, hdm] at hc hd
  · rw [hcm, hdm]
  · omega
  · omega
  · exact Char.toNat_inj.1 (by omega)

/-- The code point of no other symbol stands behind a mark. -/
theorem codePoint_singleton_ne {c d : Char} {n : Nat} (h : marked? d = some n) :
    codePoint [c] ≠ n := by
  have hn : isHalf n = true ∨ n = mark.toNat := by
    simp only [marked?, half?] at h
    split at h
    · exact .inr (Option.some.inj h).symm
    · split at h
      · next half => exact .inl (Option.some.inj h ▸ half)
      · simp at h
  intro hc
  simp only [codePoint] at hc
  split at hc
  · subst hc
    rcases hn with hn | hn <;> revert hn <;> decide
  · next hm =>
    rcases hn with hn | hn
    · exact not_isHalf_toNat c (hc ▸ hn)
    · exact hm (Char.toNat_inj.1 (hc.trans hn))

/-- No two symbols have one code point. -/
theorem codePoint_injective {x y : List Char} (hx : IsSymbol x) (hy : IsSymbol y)
    (h : codePoint x = codePoint y) : x = y := by
  cases hx with
  | plain c =>
    cases hy with
    | plain d =>
      have bound (c : Char) : c.toNat ≠ 0x110000 := by
        have valid : c.toNat.isValidChar := c.valid
        rcases valid with h | h <;> omega
      simp only [codePoint] at h
      split at h <;> split at h
      · simp_all
      · exact absurd h.symm (bound d)
      · exact absurd h (bound c)
      · rw [Char.toNat_inj.1 h]
    | marked d hd =>
      obtain ⟨n, hn⟩ := Option.isSome_iff_exists.1 hd
      exact absurd (h.trans (by simp [codePoint, hn])) (codePoint_singleton_ne hn)
  | marked c hc =>
    obtain ⟨m, hm⟩ := Option.isSome_iff_exists.1 hc
    cases hy with
    | plain d => exact absurd (h.symm.trans (by simp [codePoint, hm])) (codePoint_singleton_ne hm)
    | marked d hd =>
      obtain ⟨n, hn⟩ := Option.isSome_iff_exists.1 hd
      simp only [codePoint, hm, hn, Option.getD_some] at h
      rw [marked?_injective hm (h ▸ hn)]

/-- Texts are known by the code points of their symbols. -/
theorem eq_of_map_codePoint_eq {xs ys : List (List Char)} (hx : ∀ x ∈ xs, IsSymbol x)
    (hy : ∀ y ∈ ys, IsSymbol y) (h : xs.map codePoint = ys.map codePoint) : xs = ys := by
  induction xs generalizing ys with
  | nil => simpa using h.symm
  | cons x xs ih =>
    cases ys with
    | nil => simp at h
    | cons y ys =>
      simp only [List.map_cons, List.cons.injEq] at h
      simp only [List.forall_mem_cons] at hx hy
      rw [codePoint_injective hx.1 hy.1 h.1, ih hx.2 hy.2 h.2]

end Surrogate

/-- The code points of a text. -/
def codePoints (s : String) : List Nat := (Surrogate.symbols s.toList).map Surrogate.codePoint

theorem codePoints_injective {s t : String} (h : codePoints s = codePoints t) : s = t := by
  have := Surrogate.eq_of_map_codePoint_eq (fun _ => Surrogate.isSymbol_of_mem)
    (fun _ => Surrogate.isSymbol_of_mem) h
  rw [← String.toList_inj, ← Surrogate.flatten_symbols s.toList, this, Surrogate.flatten_symbols]

/-- The code points of a text that is held are those of its characters. -/
theorem codePoints_held (s : String) : codePoints (Surrogate.held s) = s.toList.map Char.toNat := by
  simp only [codePoints, Surrogate.held, String.toList_ofList]
  induction s.toList with
  | nil => rfl
  | cons c cs ih =>
    rw [List.flatMap_cons, Surrogate.symbols_hold, List.map_cons, ih, List.map_cons]
    by_cases h : c = Surrogate.mark
    · simp [Surrogate.hold, Surrogate.codePoint, Surrogate.marked?, h]
    · simp [Surrogate.hold, Surrogate.codePoint, h]

/-! ## The order -/

/-- Texts in the order of their code points. -/
def Ordered : Type := String

/-- A text in its place among all texts. -/
def ordered (s : String) : Ordered := s

instance : DecidableEq Ordered := inferInstanceAs (DecidableEq String)

instance : LT Ordered := ⟨fun (s t : String) => (codePoints s).lt (codePoints t)⟩

instance : LE Ordered := ⟨fun (s t : String) => (codePoints s).le (codePoints t)⟩

instance : DecidableLT Ordered := fun (s t : String) =>
  List.decidableLT (codePoints s) (codePoints t)

instance : DecidableLE Ordered := fun (s t : String) =>
  List.decidableLE (codePoints s) (codePoints t)

instance : Std.IsLinearOrder Ordered where
  le_refl (s : String) := List.le_refl (codePoints s)
  le_trans (_ _ _ : String) h k := List.le_trans h k
  le_antisymm (_ _ : String) h k := codePoints_injective (List.le_antisymm h k)
  le_total (s t : String) := List.le_total (codePoints s) (codePoints t)

instance : Std.LawfulOrderLT Ordered where
  lt_iff (s t : String) :=
    have forward (h : (codePoints s).lt (codePoints t)) : (codePoints s).le (codePoints t) :=
      List.le_of_lt h
    ⟨fun h => ⟨forward h, fun k => k h⟩, fun h => List.not_le.1 h.2⟩

end RingScan.Text
