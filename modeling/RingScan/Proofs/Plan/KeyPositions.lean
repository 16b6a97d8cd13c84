import RingScan.Proofs.Plan.KeyOrder
import RingScan.Proofs.Ring.Waypoints

set_option autoImplicit false

/-! # Where keys lie

The minimum of a ring is a position that nothing lies at. Hashes are placed so that this holds of
all of them: the least of the signed numbers of 64 bits is moved to the greatest one
(`Partitioner.holds_hashPosition`), and the magnitude of a signed number of 128 bits is at most the
maximum, which the least one reaches (`Partitioner.holds_digestMagnitude`). Where keys are in order,
only the key that is empty lies at the minimum. So every other key has a token, which lies in one
range of each list of ranges that tile the ring (`Plan.key_has_owner`). -/

namespace RingScan

/-! ## Hashes -/

theorem Digest.twosComplement_bounds (bits n : ℕ) :
    -2 ^ bits ≤ Digest.twosComplement (bits + 1) n ∧
      Digest.twosComplement (bits + 1) n < 2 ^ bits := by
  have hpow : ((1 <<< (bits + 1) : ℕ) : ℤ) = 2 * 2 ^ bits := by
    rw [Nat.one_shiftLeft]
    push_cast
    ring
  have hpos : 0 < 1 <<< (bits + 1) := by
    rw [Nat.one_shiftLeft]
    exact Nat.two_pow_pos _
  have hlow := Int.le_bmod (x := n) hpos
  have hhigh := Int.bmod_lt (x := n) hpos
  rw [hpow] at hlow hhigh
  rw [twosComplement]
  omega

namespace Partitioner

/-- The position of a hash. -/
def hashPosition (h : UInt64) : ℤ :=
  let x := Digest.twosComplement 64 h.toNat
  if x = -0x8000000000000000 then 0x7fffffffffffffff else x

theorem murmurPosition_eq (key : List UInt8) :
    murmurPosition key = hashPosition (Digest.Murmur.hash key) := rfl

/-- Whatever the hash is, something can lie at its position. -/
theorem holds_hashPosition (h : UInt64) : (ring .murmur3).Holds (hashPosition h) := by
  have hbounds : -2 ^ 63 ≤ Digest.twosComplement 64 h.toNat ∧
      Digest.twosComplement 64 h.toNat < 2 ^ 63 := Digest.twosComplement_bounds 63 h.toNat
  have hposition : -0x8000000000000000 < hashPosition h ∧ hashPosition h ≤ 0x7fffffffffffffff := by
    unfold hashPosition
    dsimp only
    split_ifs <;> omega
  refine ⟨hposition.1, fun M hM => ?_⟩
  obtain rfl := Option.some.inj hM
  exact hposition.2

/-- The position of a digest as a number. -/
def digestMagnitude (n : ℕ) : ℤ := (Digest.twosComplement 128 n).natAbs

theorem digestPosition_eq (key : List UInt8) :
    digestPosition key = digestMagnitude (Digest.bigEndian (Digest.Md5.digest key)) := rfl

/-- Whatever the digest is, something can lie at its position. -/
theorem holds_digestMagnitude (n : ℕ) : (ring .random).Holds (digestMagnitude n) := by
  have hbounds : -2 ^ 127 ≤ Digest.twosComplement 128 n ∧ Digest.twosComplement 128 n < 2 ^ 127 :=
    Digest.twosComplement_bounds 127 n
  have hposition : -1 < digestMagnitude n ∧
      digestMagnitude n ≤ 0x80000000000000000000000000000000 := by
    unfold digestMagnitude
    omega
  refine ⟨hposition.1, fun M hM => ?_⟩
  obtain rfl := Option.some.inj hM
  exact hposition.2

/-- The least numbers of both kinds come to lie at the maximum. -/
example : hashPosition 0x8000000000000000 = 0x7fffffffffffffff ∧
    digestMagnitude 0x80000000000000000000000000000000 = 0x80000000000000000000000000000000 := by
  decide +kernel

/-! ## Keys -/

variable {p : Partitioner}

/-- Whether a value is a key of a kind that its partitioner can place. A text must have bytes unless
    texts are the positions, and bytes must be those of a text if they are. -/
def IsKey (p : Partitioner) : Value → Prop
  | .str s => p = .orderPreserving ∨ (Text.utf8? s).isSome
  | .bytes bs => p = .orderPreserving → (Text.Utf8.decode bs).isSome
  | _ => False

/-- Whether a value is the text of no characters or no bytes at all. -/
def IsEmptyKey (key : Value) : Prop := key = .str "" ∨ key = .bytes []

/-- Bytes are all that counts of a text, if they can be asked for. -/
theorem positionOfText_of_plain {s u : String} (hu : Text.Surrogate.plain s = .ok u) :
    p.positionOfText s = p.position (.text u) := by
  cases p with
  | orderPreserving =>
    obtain rfl := Text.eq_held_of_plain hu
    rfl
  | _ =>
    rw [positionOfText, hu]
    · rfl
    · simp

/-- Where keys count as their bytes, every key that has some lies on the ring. -/
theorem exists_holds_of_toBytes_ne_nil (hp : p ≠ .orderPreserving) {key : Key}
    (hne : key.toBytes ≠ []) : ∃ x, p.position key = .ok x ∧ p.ring.Holds x := by
  cases p with
  | murmur3 =>
    refine ⟨murmurPosition key.toBytes, rfl, ?_⟩
    rw [murmurPosition_eq]
    exact holds_hashPosition _
  | random =>
    refine ⟨digestPosition key.toBytes, rfl, ?_⟩
    rw [digestPosition_eq]
    exact holds_digestMagnitude _
  | byteOrdered =>
    refine ⟨key.toBytes, rfl, ?_, by simp [ring]⟩
    obtain ⟨b, bs, hb⟩ := List.exists_cons_of_ne_nil hne
    rw [hb]
    exact List.nil_lt_cons b bs
  | orderPreserving => exact absurd rfl hp

/-- Where texts are the positions, every text of some characters lies on the ring. -/
theorem holds_ordered {s : String} (hne : s ≠ "") : (ring .orderPreserving).Holds (Text.ordered s) :=
  holds_of_positionOfText (p := .orderPreserving) rfl rfl hne

/-- **Keys that are not empty lie on the ring.** -/
theorem exists_holds_of_isKey {key : Value} (hkey : IsKey p key) (hne : ¬ IsEmptyKey key) :
    ∃ x, Token.ofValue p key = .ok (.position x) ∧ p.ring.Holds x := by
  have hlift {e : Except Fault p.Position} (h : ∃ x, e = .ok x ∧ p.ring.Holds x) :
      ∃ x, e.map Token.position = .ok (.position x) ∧ p.ring.Holds x := by
    obtain ⟨x, rfl, hx⟩ := h
    exact ⟨x, rfl, hx⟩
  cases key with
  | str s =>
    have hs : s ≠ "" := fun h => hne (.inl (congrArg Value.str h))
    rw [Token.ofValue_str]
    refine hlift ?_
    by_cases hp : p = .orderPreserving
    · subst hp
      exact ⟨_, rfl, holds_ordered hs⟩
    · obtain ⟨bs, hbs⟩ := Option.isSome_iff_exists.1 (hkey.resolve_left hp)
      obtain ⟨u, hu, rfl⟩ := Text.utf8?_eq_some_iff.1 hbs
      rw [positionOfText_of_plain hu]
      refine exists_holds_of_toBytes_ne_nil hp fun hnil => hs (Text.utf8?_eq_nil_iff.1 ?_)
      exact Text.utf8?_eq_some_iff.2 ⟨u, hu, hnil⟩
  | bytes bs =>
    have hbs : bs ≠ [] := fun h => hne (.inr (congrArg Value.bytes h))
    by_cases hp : p = .orderPreserving
    · subst hp
      obtain ⟨cs, hcs⟩ := Option.isSome_iff_exists.1 (hkey rfl)
      have htext := Text.decode_eq_some_iff_utf8?.1 hcs
      refine ⟨_, Token.ofValue_orderPreserving_bytes.2 ⟨_, htext, rfl⟩, holds_ordered fun h => hbs ?_⟩
      exact Option.some.inj (htext.symm.trans (Text.utf8?_eq_nil_iff.2 h))
    · rw [Token.ofValue_bytes]
      exact hlift (exists_holds_of_toBytes_ne_nil hp hbs)
  | _ => exact hkey.elim

end Partitioner

namespace Plan

variable {p : Partitioner}

/-- **Every key that is not empty has an owner.** -/
theorem key_has_owner {key : Value} (hkey : p.IsKey key) (hne : ¬ Partitioner.IsEmptyKey key) :
    ∃ x : p.Position, Token.ofValue p key = .ok (.position x) ∧ p.ring.minimum < x ∧
      (∀ M ∈ p.ring.maximum?, x ≤ M) ∧
      (∀ arcs : List (Arc p.Position), Tiles (Arc.points p.ring) arcs p.ring.points →
        ∃! i : Fin arcs.length, x ∈ (arcs.get i).points p.ring) ∧
      ∀ ranges : List TokenRange, Tiles (TokenRange.points p) ranges p.ring.points →
        ∃! i : Fin ranges.length, x ∈ (ranges.get i).points p := by
  obtain ⟨x, hx, hholds⟩ := Partitioner.exists_holds_of_isKey hkey hne
  exact ⟨x, hx, hholds.1, hholds.2, fun _ h => h.existsUnique hholds,
    fun _ h => h.existsUnique hholds⟩

/-- The two halves of a ring of 64 bits. -/
def halves : List (Arc (Partitioner.Position .murmur3)) :=
  [⟨(-0x8000000000000000 : ℤ), (0 : ℤ)⟩, ⟨(0 : ℤ), (-0x8000000000000000 : ℤ)⟩]

/-- A key that is hashed lies in one half of its ring. -/
theorem key_has_owner_halves : ∃ x : Partitioner.Position .murmur3,
    Token.ofValue .murmur3 (.str "a") = .ok (.position x) ∧
      ∃! i : Fin halves.length, x ∈ (halves.get i).points (Partitioner.ring .murmur3) := by
  have hkey : Partitioner.IsKey .murmur3 (.str "a") := .inr (by decide +kernel)
  have hne : ¬ Partitioner.IsEmptyKey (.str "a") := by simp [Partitioner.IsEmptyKey]
  obtain ⟨x, hx, -, -, harcs, -⟩ := key_has_owner hkey hne
  refine ⟨x, hx, harcs halves ?_⟩
  -- the middle of the ring lies on the way from its minimum to its minimum
  have hwhole : Arc.points (Partitioner.ring .murmur3)
      ⟨(-0x8000000000000000 : ℤ), (-0x8000000000000000 : ℤ)⟩ =
        (Partitioner.ring .murmur3).points := Arc.points_of_left_eq_right rfl
  have hmiddle : Arc.IsWaypoint (Partitioner.ring .murmur3)
      ⟨(-0x8000000000000000 : ℤ), (-0x8000000000000000 : ℤ)⟩ (0 : ℤ) := by
    refine ⟨hwhole ▸ ?_, (by decide : (0 : ℤ) ≠ -0x8000000000000000)⟩
    exact ⟨(by decide : (-0x8000000000000000 : ℤ) < 0), fun M hM =>
      Option.some.inj hM ▸ (by decide : (0 : ℤ) ≤ 0x7fffffffffffffff)⟩
  rw [← hwhole]
  exact hmiddle.tiles

/-- Half of a pair is not empty, and its bytes cannot be asked for. -/
theorem half_key_has_no_owner :
    ¬ Partitioner.IsEmptyKey (.str (halfKey 0xd800)) ∧
      Token.ofValue .murmur3 (.str (halfKey 0xd800)) = .error .unencodable ∧
      Token.ofValue .random (.str (halfKey 0xd800)) = .error .unencodable ∧
      Token.ofValue .byteOrdered (.str (halfKey 0xd800)) = .error .unencodable := by
  have hne : halfKey 0xd800 ≠ "" := by decide +kernel
  have hplain : Text.Surrogate.plain (halfKey 0xd800) = .error .unencodable := by
    have hnone : Text.Surrogate.plain? (halfKey 0xd800).toList = none := by decide +kernel
    rw [Text.Surrogate.plain, hnone]
  have hposition {p : Partitioner} (hp : p ≠ .orderPreserving) :
      Token.ofValue p (.str (halfKey 0xd800)) = .error .unencodable := by
    rw [Token.ofValue_str, Partitioner.positionOfText, hplain]
    · rfl
    · exact hp
  refine ⟨?_, hposition (by decide), hposition (by decide), hposition (by decide)⟩
  simpa [Partitioner.IsEmptyKey] using hne

end Plan

end RingScan
