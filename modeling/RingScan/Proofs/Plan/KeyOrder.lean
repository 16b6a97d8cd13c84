import RingScan.Proofs.Plan.KeyInterval
import RingScan.Proofs.Text.Utf8RoundTrip

set_option autoImplicit false

/-! # Keys in their order

Two partitioners keep keys in their order. One has the texts themselves as positions, the other one
their bytes, as long as these can be asked for (`Text.utf8?`). Both orders are that of the code
points, so that whatever is said of keys by their order alone is the same on both rings: an arc
between keys takes in the same keys (`Partitioner.mem_points_iff_ordered`), and so do a restriction
(`Plan.selects_iff`) and the tasks that it makes of ranges that cover the ring
(`Plan.planned_iff_selects`). -/

namespace RingScan

open Text (ordered codePoints)

variable {p : Partitioner}

/-! ## The tokens of texts -/

namespace Text

/-- The bytes of a text, if they can be asked for. -/
def utf8? (s : String) : Option (List UInt8) := (Surrogate.plain? s.toList).map Utf8.encode

theorem isSome_utf8? (s : String) : (utf8? s).isSome = Surrogate.isPlain s := by
  rw [utf8?, Option.isSome_map, Surrogate.isPlain]

theorem utf8?_eq_some_iff {s : String} {bs : List UInt8} :
    utf8? s = some bs ↔ ∃ u, Surrogate.plain s = .ok u ∧ Utf8.encode u.toList = bs := by
  unfold utf8? Surrogate.plain
  cases Surrogate.plain? s.toList with
  | none => simp
  | some cs => simp

/-- Bytes that are read as a text are those of the text that holds it. -/
theorem decode_eq_some_iff_utf8? {bs : List UInt8} {cs : List Char} :
    Utf8.decode bs = some cs ↔ utf8? (Surrogate.held (String.ofList cs)) = some bs := by
  have hplain : Surrogate.plain? (Surrogate.held (String.ofList cs)).toList = some cs := by
    rw [Surrogate.plain?_eq_some_iff, Surrogate.held, String.toList_ofList, String.toList_ofList]
  rw [utf8?, hplain, Option.map_some, Option.some.injEq, Utf8.decode_eq_some_iff]

/-- Only the text of no characters has no bytes. -/
theorem utf8?_eq_nil_iff {s : String} : utf8? s = some [] ↔ s = "" := by
  constructor
  · intro h
    obtain ⟨u, hu, hnil⟩ := utf8?_eq_some_iff.1 h
    have hread : some u.toList = some [] := by
      rw [← Utf8.decode_encode, hnil]
      rfl
    obtain rfl : u = "" := String.toList_eq_nil_iff.1 (Option.some.inj hread)
    exact eq_held_of_plain hu
  · rintro rfl
    rfl

end Text

namespace Token

theorem below?_position (x y : p.Position) :
    (position x).below? (position y) = some (decide (x < y)) := by
  simp only [below?, relate]
  split_ifs with hlt heq <;> simp [hlt, Value.Comparison.below?]

theorem ofValue_str (p : Partitioner) (s : String) :
    ofValue p (.str s) = (p.positionOfText s).map .position := by
  cases p <;> rfl

theorem ofValue_bytes (p : Partitioner) (bs : List UInt8) :
    ofValue p (.bytes bs) = (p.position (.bytes bs)).map .position := by
  cases p <;> rfl

theorem ofValue_byteOrdered (s : String) :
    ofValue .byteOrdered (.str s) =
      match Text.utf8? s with
      | some bs => .ok (.position bs)
      | none => .error .unencodable := by
  have hplain : Partitioner.positionOfText .byteOrdered s = (Text.Surrogate.plain s).bind fun s =>
      Partitioner.position .byteOrdered (.text s) := rfl
  rw [ofValue_str, hplain, Text.Surrogate.plain, Text.utf8?]
  cases Text.Surrogate.plain? s.toList with
  | none => rfl
  | some cs =>
    have htext : (String.ofList cs).toList = cs := String.toList_ofList
    simp only [Option.map_some, Except.bind, Partitioner.position, Partitioner.position?,
      Key.toBytes, Except.map, htext]

theorem ofValue_orderPreserving (s : String) :
    ofValue .orderPreserving (.str s) = .ok (.position (ordered s)) := rfl

/-- Bytes have a token just if they are those of a text, and then it is the token of that text. -/
theorem ofValue_orderPreserving_bytes {bs : List UInt8} {t : Token .orderPreserving} :
    ofValue .orderPreserving (.bytes bs) = .ok t ↔
      ∃ s, Text.utf8? s = some bs ∧ t = .position (ordered s) := by
  have hread : Partitioner.position? .orderPreserving (.bytes bs) =
      (Text.Utf8.decode bs).map fun cs => ordered (Text.Surrogate.held (String.ofList cs)) := rfl
  rw [ofValue_bytes, Partitioner.position, hread]
  constructor
  · intro h
    cases hcs : Text.Utf8.decode bs with
    | none => simp [hcs, Except.map] at h
    | some cs =>
      simp only [hcs, Option.map_some, Except.map, Except.ok.injEq] at h
      exact ⟨_, Text.decode_eq_some_iff_utf8?.1 hcs, h.symm⟩
  · rintro ⟨s, hs, rfl⟩
    obtain ⟨u, hu, rfl⟩ := Text.utf8?_eq_some_iff.1 hs
    obtain rfl := Text.eq_held_of_plain hu
    simp only [Text.Utf8.decode_encode, Option.map_some, Except.map, String.ofList_toList]

end Token

/-! ## Arcs between keys -/

namespace Partitioner

variable {start stop key : String} {l r x : p.Position}

/-- Only the text of no characters lies where nothing does. -/
theorem holds_iff_ne_empty (hp : p.preservesOrder = true) (hx : p.positionOfText key = .ok x) :
    p.ring.Holds x ↔ key ≠ "" := by
  constructor
  · rintro ⟨hlt, -⟩ rfl
    obtain rfl := Except.ok.inj ((positionOfText_empty hp).symm.trans hx)
    exact Std.lt_irrefl hlt
  · exact holds_of_positionOfText hp hx

/-- **What an arc between keys takes in**, by the order of the keys alone. -/
theorem mem_points_iff_ordered (hp : p.preservesOrder = true) (hl : p.positionOfText start = .ok l)
    (hr : p.positionOfText stop = .ok r) (hx : p.positionOfText key = .ok x) :
    x ∈ Arc.points p.ring ⟨l, r⟩ ↔ key ≠ "" ∧
      if ordered start < ordered stop then ordered start < ordered key ∧ ordered key ≤ ordered stop
      else if stop = "" then ordered start < ordered key
      else ordered start < ordered key ∨ ordered key ≤ ordered stop := by
  have hend : r = p.ring.minimum ↔ stop = "" := by
    constructor
    · rintro rfl
      exact eq_of_positionOfText hp hr (positionOfText_empty hp)
    · rintro rfl
      exact Except.ok.inj (hr.symm.trans (positionOfText_empty hp))
  simp only [Arc.points, Set.mem_ofPred_eq, holds_iff_ne_empty hp hx, lt_iff_ordered_lt hp hl hr,
    lt_iff_ordered_lt hp hl hx, le_iff_ordered_le hp hx hr, hend]

end Partitioner

/-! ## Restrictions -/

namespace Plan

variable {restriction? : Option KeyRestriction} {key : String}

/-- The keys that a restriction names. -/
def KeyRestriction.keys (r : KeyRestriction) : List String := r.startKey?.toList ++ r.endKey?.toList

/-- Whether a restriction can be used and takes in a key. -/
def Selects (p : Partitioner) (restriction? : Option KeyRestriction) (key : String) : Prop :=
  ∃ job? x, jobArc p restriction? = .ok job? ∧ p.positionOfText key = .ok x ∧ x ∈ jobPoints job?

/-- The same, by the order of the keys alone. -/
def TakesIn (restriction? : Option KeyRestriction) (key : String) : Prop :=
  key ≠ "" ∧ ∀ r ∈ restriction?, ∀ start ∈ r.startKey?, r.startToken? = none ∧ r.endToken? = none ∧
    if ordered start < ordered (r.endKey?.getD "") then
      ordered start < ordered key ∧ ordered key ≤ ordered (r.endKey?.getD "")
    else if r.endKey?.getD "" = "" then ordered start < ordered key
    else ordered start < ordered key ∨ ordered key ≤ ordered (r.endKey?.getD "")

/-- The arc of a restriction from a key on, and why there is none. -/
theorem jobArc_eq (hp : p.preservesOrder = true) {r : KeyRestriction} {start : String}
    {left right : p.Position} (hstart : r.startKey? = some start)
    (hleft : p.positionOfText start = .ok left)
    (hright : p.positionOfText (r.endKey?.getD "") = .ok right) :
    jobArc p (some r) =
      if r.startToken? = none ∧ r.endToken? = none then .ok (some ⟨left, right⟩)
      else .error (.configuration .tokenBound) := by
  obtain ⟨startKey?, endKey?, startToken?, endToken?⟩ := r
  obtain rfl : startKey? = some start := hstart
  -- without an end key, the arc goes up to the end of the ring
  have hend : ∀ stop, endKey? = some stop → p.positionOfText stop = .ok right := by
    rintro stop rfl
    exact hright
  have hnone : endKey? = none → right = p.ring.minimum := by
    rintro rfl
    exact Except.ok.inj (hright.symm.trans (Partitioner.positionOfText_empty hp))
  cases startToken? <;> cases endToken? <;> cases endKey? <;>
    simp_all [jobArc, keyPosition, Except.mapError, bind, Except.bind, pure, Except.pure]

/-- **What a restriction takes in is told by the order of the keys.** -/
theorem selects_iff (hp : p.preservesOrder = true)
    (hkeys : ∀ r ∈ restriction?, ∀ k ∈ r.keys, HasPosition p k) (hkey : HasPosition p key) :
    Selects p restriction? key ↔ TakesIn restriction? key := by
  obtain ⟨x, hx⟩ := hkey
  have hselects : Selects p restriction? key ↔
      ∃ job?, jobArc p restriction? = .ok job? ∧ x ∈ jobPoints job? := by
    constructor
    · rintro ⟨job?, y, hjob, hy, hmem⟩
      obtain rfl := Except.ok.inj (hx.symm.trans hy)
      exact ⟨job?, hjob, hmem⟩
    · rintro ⟨job?, hjob, hmem⟩
      exact ⟨job?, x, hjob, hx, hmem⟩
  have hall : x ∈ jobPoints (p := p) none ↔ key ≠ "" := Partitioner.holds_iff_ne_empty hp hx
  rw [hselects]
  cases restriction? with
  | none => simp [jobArc, hall, TakesIn]
  | some r =>
    cases hstart : r.startKey? with
    | none => simp [jobArc, hstart, hall, TakesIn]
    | some start =>
      have hkeys : ∀ k ∈ r.keys, HasPosition p k := hkeys r rfl
      obtain ⟨left, hleft⟩ := hkeys start (by simp [KeyRestriction.keys, hstart])
      obtain ⟨right, hright⟩ : HasPosition p (r.endKey?.getD "") := by
        cases hstop : r.endKey? with
        | none => exact ⟨_, Partitioner.positionOfText_empty hp⟩
        | some stop => exact hkeys stop (by simp [KeyRestriction.keys, hstop])
      have hmem := Partitioner.mem_points_iff_ordered hp hleft hright hx
      rw [jobArc_eq hp hstart hleft hright]
      split_ifs with htokens
      · simp [jobPoints, hmem, TakesIn, hstart, htokens]
      · have hbound : r.startToken? = none → ¬ r.endToken? = none := by simpa using htokens
        simp +contextual [TakesIn, hstart, hbound]

/-! ## Tasks -/

/-- Whether a restriction can be used and makes tasks of ranges, one of which takes in a key. -/
def Plans (p : Partitioner) (size : Value) (restriction? : Option KeyRestriction)
    (ranges : List TokenRange) (key : String) : Prop :=
  ∃ job? tasks x, jobArc p restriction? = .ok job? ∧ restrict size job? ranges = .ok tasks ∧
    p.positionOfText key = .ok x ∧ ∃ t ∈ tasks, x ∈ t.range.points p

/-- Whether ranges lie between bounds of the ring and cover it. -/
structure Covers (p : Partitioner) (ranges : List TokenRange) : Prop where
  inRing : ∀ r ∈ ranges, InRing p r.startToken r.endToken
  union : ⋃ r ∈ ranges, r.points p = p.ring.points

/-- Of ranges that cover the ring, a restriction makes tasks that take in what it does. -/
theorem plans_iff_selects (hp : p.preservesOrder = true) {ranges : List TokenRange}
    (h : Covers p ranges) (size : Value) :
    Plans p size restriction? ranges key ↔ Selects p restriction? key := by
  have htasks : ∀ job? : Option (Arc p.Position), ∃ tasks, restrict size job? ranges = .ok tasks ∧
      ∀ x, (∃ t ∈ tasks, x ∈ t.range.points p) ↔ x ∈ jobPoints job? := by
    rintro (_ | job)
    · refine ⟨_, rfl, fun x => ?_⟩
      rw [jobPoints, ← h.union, Set.mem_iUnion₂]
      simp
    · exact exists_task_iff hp h.inRing h.union size
  constructor
  · rintro ⟨job?, tasks, x, hjob, hrestrict, hx, hplanned⟩
    obtain ⟨found, hfound, hiff⟩ := htasks job?
    obtain rfl := Except.ok.inj (hrestrict.symm.trans hfound)
    exact ⟨job?, x, hjob, hx, (hiff x).1 hplanned⟩
  · rintro ⟨job?, x, hjob, hx, hmem⟩
    obtain ⟨tasks, hrestrict, hiff⟩ := htasks job?
    exact ⟨job?, tasks, x, hjob, hrestrict, hx, (hiff x).2 hmem⟩

theorem hasPosition_of_utf8? {k : String} (hp : p.preservesOrder = true)
    (hk : (Text.utf8? k).isSome = true) : HasPosition p k := by
  cases p with
  | murmur3 => simp [Partitioner.preservesOrder] at hp
  | random => simp [Partitioner.preservesOrder] at hp
  | byteOrdered => exact hasPosition_byteOrdered k (Text.isSome_utf8? k ▸ hk)
  | orderPreserving => exact ⟨_, rfl⟩

/-- **Two partitioners keep keys in their order, and agree.** Where texts are the positions, all
    texts have tokens, which are in the order of the code points. Where bytes are, the texts whose
    bytes can be asked for have tokens, in the same order; the bytes are the token of the text on
    one ring and have the token of the text on the other one. So a restriction takes in the same
    keys on both rings, and so do the tasks that it makes of ranges that cover them. -/
theorem keys_keep_order :
    (∀ s t : String, ∃ x y, Token.ofValue .orderPreserving (.str s) = .ok x ∧
      Token.ofValue .orderPreserving (.str t) = .ok y ∧
      x.below? y = some (decide (codePoints s < codePoints t))) ∧
    (∀ s t : String, ∀ a ∈ Text.utf8? s, ∀ b ∈ Text.utf8? t, ∃ x y,
      Token.ofValue .byteOrdered (.str s) = .ok x ∧ Token.ofValue .byteOrdered (.str t) = .ok y ∧
      x.value = .bytes a ∧ y.value = .bytes b ∧
      x.below? y = some (decide (codePoints s < codePoints t))) ∧
    (∀ s : String, ∀ a ∈ Text.utf8? s,
      Token.ofValue .orderPreserving (.bytes a) = Token.ofValue .orderPreserving (.str s)) ∧
    (∀ (restriction? : Option KeyRestriction) (key : String),
      (∀ r ∈ restriction?, ∀ k ∈ r.keys, (Text.utf8? k).isSome) → (Text.utf8? key).isSome →
      (Selects .byteOrdered restriction? key ↔ Selects .orderPreserving restriction? key) ∧
      ∀ (size : Value) (ranges ranges' : List TokenRange), Covers .byteOrdered ranges →
        Covers .orderPreserving ranges' →
        (Plans .byteOrdered size restriction? ranges key ↔
          Plans .orderPreserving size restriction? ranges' key)) := by
  refine ⟨fun s t => ?_, fun s t a ha b hb => ?_, fun s a ha => ?_, ?_⟩
  · exact ⟨_, _, Token.ofValue_orderPreserving s, Token.ofValue_orderPreserving t,
      Token.below?_position _ _⟩
  · obtain ⟨u, hu, rfl⟩ := Text.utf8?_eq_some_iff.1 (Option.mem_def.1 ha)
    obtain ⟨v, hv, rfl⟩ := Text.utf8?_eq_some_iff.1 (Option.mem_def.1 hb)
    refine ⟨.position (Text.Utf8.encode u.toList), .position (Text.Utf8.encode v.toList),
      ?_, ?_, rfl, rfl, ?_⟩
    · rw [Token.ofValue_byteOrdered, Option.mem_def.1 ha]
    · rw [Token.ofValue_byteOrdered, Option.mem_def.1 hb]
    · exact (Token.below?_position _ _).trans
        (congrArg some (decide_eq_decide.2 (Text.encode_lt_iff_ordered_lt hu hv)))
  · exact Token.ofValue_orderPreserving_bytes.2 ⟨s, ha, rfl⟩
  · intro restriction? key hkeys hkey
    have hselects : Selects .byteOrdered restriction? key ↔
        Selects .orderPreserving restriction? key := by
      rw [selects_iff rfl (fun r hr k hk => hasPosition_of_utf8? rfl (hkeys r hr k hk))
          (hasPosition_of_utf8? rfl hkey),
        selects_iff rfl (fun r hr k hk => hasPosition_of_utf8? rfl (hkeys r hr k hk))
          (hasPosition_of_utf8? rfl hkey)]
    refine ⟨hselects, fun size ranges ranges' hcover hcover' => ?_⟩
    rw [plans_iff_selects rfl hcover, plans_iff_selects rfl hcover', hselects]

/-- All of a ring is covered by one range. -/
theorem covers_wholeRange (hp : p.preservesOrder = true) : Covers p [wholeRange] := by
  have hbounds := Partitioner.bounds_of_preservesOrder hp p.ring.minimum
  have hwithin : (Arc.mk p.ring.minimum p.ring.minimum).Within p.ring := ⟨hbounds, hbounds⟩
  have hrender : p.ring.minimum.render = "" := by
    cases p with
    | murmur3 => simp [Partitioner.preservesOrder] at hp
    | random => simp [Partitioner.preservesOrder] at hp
    | byteOrdered => decide +kernel
    | orderPreserving => rfl
  have hin := inRing_render hwithin
  have hpoints := pointsBetween_render hwithin
  rw [hrender] at hin hpoints
  refine ⟨List.forall_mem_singleton.2 hin, ?_⟩
  have hall : wholeRange.points p = p.ring.points := by
    refine hpoints.trans (Set.ext fun t => ?_)
    rw [Arc.mem_points_toEnd hbounds]
    exact ⟨fun h => h.1, fun h => ⟨h, h.1⟩⟩
  simp [hall]

/-- Keys of one, two, three and four bytes, and a restriction between them. -/
theorem keys_keep_order_lengths :
    (∃ x y, Token.ofValue .byteOrdered (.str "zé") = .ok x ∧
      Token.ofValue .byteOrdered (.str "z€") = .ok y ∧ x.below? y = some true) ∧
    (∃ x y, Token.ofValue .orderPreserving (.str "zé") = .ok x ∧
      Token.ofValue .orderPreserving (.str "z€") = .ok y ∧ x.below? y = some true) ∧
    Token.ofValue .orderPreserving (.bytes [0x7a, 0xc3, 0xa9]) =
      Token.ofValue .orderPreserving (.str "zé") ∧
    (Plans .byteOrdered (.int 64) (some (keysFrom "zé" (some "𐍈"))) [wholeRange] "z€" ↔
      Plans .orderPreserving (.int 64) (some (keysFrom "zé" (some "𐍈"))) [wholeRange] "z€") := by
  obtain ⟨htexts, hbytes, hsame, hselects⟩ := keys_keep_order
  have hfirst : [0x7a, 0xc3, 0xa9] ∈ Text.utf8? "zé" := by decide +kernel
  have hsecond : [0x7a, 0xe2, 0x82, 0xac] ∈ Text.utf8? "z€" := by decide +kernel
  have hthird : (Text.utf8? "𐍈").isSome := by decide +kernel
  have hlt : decide (codePoints "zé" < codePoints "z€") = true := by decide +kernel
  refine ⟨?_, ?_, hsame _ _ hfirst, ?_⟩
  · obtain ⟨x, y, hx, hy, -, -, hxy⟩ := hbytes _ _ _ hfirst _ hsecond
    exact ⟨x, y, hx, hy, hlt ▸ hxy⟩
  · obtain ⟨x, y, hx, hy, hxy⟩ := htexts "zé" "z€"
    exact ⟨x, y, hx, hy, hlt ▸ hxy⟩
  · have hkeys : ∀ r ∈ some (keysFrom "zé" (some "𐍈")), ∀ k ∈ r.keys, (Text.utf8? k).isSome := by
      rintro r ⟨⟩ k hk
      obtain rfl | rfl : k = "zé" ∨ k = "𐍈" := by simpa [KeyRestriction.keys, keysFrom] using hk
      · exact Option.isSome_iff_exists.2 ⟨_, hfirst⟩
      · exact hthird
    exact (hselects _ _ hkeys (Option.isSome_iff_exists.2 ⟨_, hsecond⟩)).2 _ _ _
      (covers_wholeRange rfl) (covers_wholeRange rfl)

/-- A text that is half of a pair. -/
def halfKey (n : ℕ) : String := String.ofList (Text.Surrogate.ofCodePoint n)

/-- Two halves are in order, and their bytes cannot be asked for. -/
theorem half_keys_unordered :
    codePoints (halfKey 0xd800) < codePoints (halfKey 0xd801) ∧
      Token.ofValue .byteOrdered (.str (halfKey 0xd800)) = .error .unencodable ∧
      Token.ofValue .byteOrdered (.str (halfKey 0xd801)) = .error .unencodable := by
  have hnone : Text.utf8? (halfKey 0xd800) = none ∧ Text.utf8? (halfKey 0xd801) = none := by
    decide +kernel
  refine ⟨by decide +kernel, ?_, ?_⟩
  · rw [Token.ofValue_byteOrdered, hnone.1]
  · rw [Token.ofValue_byteOrdered, hnone.2]

end Plan

end RingScan
