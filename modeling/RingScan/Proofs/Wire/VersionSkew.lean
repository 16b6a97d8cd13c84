import Mathlib.Data.List.Forall2
import Mathlib.Data.List.Nodup
import RingScan.Wire.Schema

set_option autoImplicit false

/-! # Messages between versions

A node of another version may know more members of a message, and it may send members in another
order. Neither changes what is read: a schema reads the message that it would read from the members
it knows (`Schema.read_skewed`), and so it is with the messages inside of a message. What matters of
an object is which values its known names have; the order is gone as soon as they are looked up. -/

namespace RingScan.Wire

open List (Forall₂)

/-! ## Skewed objects -/

/-- Whether members arrive as another version may send them: the members that are known, each with
    the value in which its own arrives, among members of other names, in any order. -/
def SkewedMembers (names : List String) (arrives : String → Value → Value → Prop)
    (written received : Record) : Prop :=
  ∃ known unknown : Record, Forall₂ (fun m m' => m'.1 = m.1 ∧ arrives m.1 m.2 m'.2) written known ∧
    (∀ m ∈ unknown, m.1 ∉ names) ∧ received.Perm (known ++ unknown)

/-- The names of fields. -/
def fieldNames (fields : List Field) : List String := fields.map Field.name

/-- Whether a value arrives as another one, where the members of an object may be skewed. What is
    inside of them arrives as it is. -/
def SkewedFlat (fields : List Field) : Value → Value → Prop
  | .obj r, w => ∃ r', w = .obj r' ∧ SkewedMembers (fieldNames fields) (fun _ => Eq) r r'
  | v, w => v = w

/-- Whether the value of a member arrives as another one, where the messages in it may be skewed. -/
def Content.Skewed : Content → Value → Value → Prop
  | .record fields, v, w => SkewedFlat fields v w
  | .records fields, .arr items, w =>
      ∃ items', w = .arr items' ∧ Forall₂ (SkewedFlat fields) items items'
  | _, v, w => v = w

/-- Whether a message arrives as a value. -/
def Schema.Skewed (s : Schema) (x : Record) (v : Value) : Prop :=
  ∃ received, v = .obj received ∧ SkewedMembers (fieldNames s.fields)
    (fun name v w => ∀ m ∈ s.find? name, m.content.Skewed v w) x received

theorem SkewedMembers.refl {names : List String} {arrives : String → Value → Value → Prop}
    (h : ∀ name v, arrives name v v) (r : Record) : SkewedMembers names arrives r r :=
  ⟨r, [], List.forall₂_same.2 fun _ _ => ⟨rfl, h _ _⟩, by simp, by simp⟩

theorem SkewedFlat.refl (fields : List Field) (v : Value) : SkewedFlat fields v v := by
  cases v with
  | obj r => exact ⟨r, rfl, .refl (fun _ _ => rfl) r⟩
  | _ => rfl

theorem Content.Skewed.refl (content : Content) (v : Value) : content.Skewed v v := by
  cases content with
  | plain => rfl
  | sequence => rfl
  | record fields => exact SkewedFlat.refl fields v
  | records fields =>
    cases v with
    | arr items => exact ⟨items, rfl, List.forall₂_same.2 fun item _ => SkewedFlat.refl fields item⟩
    | _ => rfl

/-- A message of the same version arrives as it is. -/
theorem Schema.Skewed.refl (s : Schema) (x : Record) : s.Skewed x (.obj x) :=
  ⟨x, rfl, .refl (fun _ v m _ => .refl m.content v) x⟩

/-! ## Messages as they are held -/

/-- Whether a value is an object with just these members, in their order. -/
def HoldsFlat (fields : List Field) (v : Value) : Prop :=
  ∃ r : Record, v = .obj r ∧ r.map Prod.fst = fieldNames fields

/-- Whether the value of a member is held as it is read. -/
def Content.Holds : Content → Value → Prop
  | .plain, _ => True
  | .sequence, v => ∃ items, v = .arr items
  | .record fields, v => v = .null ∨ HoldsFlat fields v
  | .records fields, v =>
      v = .null ∨ ∃ items, v = .arr items ∧ ∀ item ∈ items, HoldsFlat fields item

/-- The fields of the messages inside of a member. -/
def Content.fields : Content → List Field
  | .record fields => fields
  | .records fields => fields
  | _ => []

/-- Whether no object of a message has two members of one name. -/
def Schema.IsDistinct (s : Schema) : Prop :=
  (fieldNames s.fields).Nodup ∧ ∀ m ∈ s, (fieldNames m.content.fields).Nodup

instance (s : Schema) : Decidable s.IsDistinct :=
  inferInstanceAs (Decidable ((fieldNames s.fields).Nodup ∧
    ∀ m ∈ s, (fieldNames m.content.fields).Nodup))

/-- Whether a message is held as it is read. -/
def Schema.Holds (s : Schema) (x : Record) : Prop :=
  Forall₂ (fun (m : Member) (e : String × Value) => e.1 = m.field.name ∧ m.content.Holds e.2) s x

/-! ## Looking up -/

theorem lookup?_eq_some {name : String} {v : Value} {r : Record} (h : (name, v) ∈ r)
    (hunique : ∀ w, (name, w) ∈ r → w = v) : Value.lookup? name r = some v := by
  induction r with
  | nil => simp at h
  | cons m r ih =>
    obtain ⟨key, w⟩ := m
    by_cases hkey : key = name
    · subst hkey
      simp [Value.lookup?, hunique w (by simp)]
    · rw [Value.lookup?, if_neg hkey]
      refine ih ?_ fun w hw => hunique w (List.mem_cons_of_mem _ hw)
      simpa [Ne.symm hkey] using h

/-- Members that go with things of their names have the names of these. -/
theorem map_fst_eq {α : Type} {name : α → String} {R : α → String × Value → Prop} {as : List α}
    {r : Record} (h : Forall₂ (fun a e => e.1 = name a ∧ R a e) as r) :
    r.map Prod.fst = as.map name := by
  induction h with
  | nil => rfl
  | cons hm _ ih => rw [List.map_cons, List.map_cons, hm.1, ih]

theorem exists_of_mem {α β : Type} {R : α → β → Prop} {as : List α} {bs : List β}
    (h : Forall₂ R as bs) {a : α} (ha : a ∈ as) : ∃ b ∈ bs, R a b := by
  induction h with
  | nil => simp at ha
  | cons hab _ ih =>
    rcases List.mem_cons.1 ha with rfl | ha
    · exact ⟨_, List.mem_cons_self, hab⟩
    · obtain ⟨b, hb, hab⟩ := ih ha
      exact ⟨b, List.mem_cons_of_mem _ hb, hab⟩

/-- Of skewed members every known name has one value, the one in which its own arrives. -/
theorem SkewedMembers.exists_arrives {names : List String}
    {arrives : String → Value → Value → Prop} {written received : Record}
    (h : SkewedMembers names arrives written received) (hnodup : names.Nodup)
    (hnames : written.map Prod.fst = names) :
    ∀ e ∈ written, ∃ v, arrives e.1 e.2 v ∧ (e.1, v) ∈ received ∧
      ∀ w, (e.1, w) ∈ received → w = v := by
  obtain ⟨known, unknown, hknown, hunknown, hperm⟩ := h
  have hsame : known.map Prod.fst = names := (map_fst_eq hknown).trans hnames
  intro e he
  obtain ⟨⟨name, v⟩, hmem, hname, harrives⟩ := exists_of_mem hknown he
  obtain rfl : name = e.1 := hname
  have hmemname : e.1 ∈ names := hnames ▸ List.mem_map_of_mem he
  refine ⟨v, harrives, hperm.mem_iff.2 (List.mem_append_left _ hmem), fun w hw => ?_⟩
  rcases List.mem_append.1 (hperm.mem_iff.1 hw) with hw | hw
  · have heq := List.inj_on_of_nodup_map (hsame ▸ hnodup : (known.map Prod.fst).Nodup) hw hmem rfl
    exact congrArg Prod.snd heq
  · exact absurd hmemname (hunknown (e.1, w) hw)

/-- The members of a message are filled in from where they are found. -/
theorem fill_eq {fields : List Field} {given x : Record}
    (hnames : x.map Prod.fst = fieldNames fields)
    (h : ∀ e ∈ x, Value.lookup? e.1 given = some e.2) : fill fields given = .ok x := by
  induction fields generalizing x with
  | nil =>
    obtain rfl : x = [] := by simpa [fieldNames] using hnames
    rfl
  | cons f fields ih =>
    cases x with
    | nil => simp [fieldNames] at hnames
    | cons e x =>
      obtain ⟨hname, hrest⟩ := List.cons.inj hnames
      obtain ⟨he, hx⟩ := List.forall_mem_cons.1 h
      have hothers := ih hrest hx
      rw [fill] at hothers
      simp only [fill, List.mapM_cons, ← hname, he, hothers]
      rfl

/-! ## Reading -/

/-- A skewed object is read as it was written. -/
theorem readFlat_skewed {fields : List Field} {v w : Value} (hnodup : (fieldNames fields).Nodup)
    (hv : HoldsFlat fields v) (h : SkewedFlat fields v w) : readFlat fields w = .ok v := by
  obtain ⟨r, rfl, hr⟩ := hv
  obtain ⟨r', rfl, h⟩ := h
  have hfill : fill fields r' = .ok r := fill_eq hr fun e he => by
    obtain ⟨v, rfl, hmem, hunique⟩ := h.exists_arrives hnodup hr e he
    exact lookup?_eq_some hmem hunique
  rw [readFlat, hfill]
  rfl

/-- So are the objects of a list. -/
theorem mapM_readFlat_skewed {fields : List Field} {items items' : List Value}
    (hnodup : (fieldNames fields).Nodup) (hitems : ∀ item ∈ items, HoldsFlat fields item)
    (h : Forall₂ (SkewedFlat fields) items items') :
    items'.mapM (readFlat fields) = .ok items := by
  induction h with
  | nil => rfl
  | cons hitem _ ih =>
    obtain ⟨hfirst, hrest⟩ := List.forall_mem_cons.1 hitems
    rw [List.mapM_cons, readFlat_skewed hnodup hfirst hitem, ih hrest]
    rfl

/-- The value of a member is read as it was written. -/
theorem Content.read_skewed {content : Content} {v w : Value}
    (hnodup : (fieldNames content.fields).Nodup) (hv : content.Holds v) (h : content.Skewed v w) :
    content.read w = .ok v := by
  cases content with
  | plain =>
    obtain rfl : v = w := h
    rfl
  | sequence =>
    obtain rfl : v = w := h
    obtain ⟨items, rfl⟩ := hv
    rfl
  | record fields =>
    rcases hv with rfl | hv
    · obtain rfl : .null = w := h
      rfl
    · have hread := readFlat_skewed hnodup hv h
      obtain ⟨r, rfl, -⟩ := hv
      obtain ⟨r', rfl, -⟩ := h
      exact hread
  | records fields =>
    rcases hv with rfl | ⟨items, rfl, hitems⟩
    · obtain rfl : .null = w := h
      rfl
    · obtain ⟨items', rfl, h⟩ := h
      have hread : items'.mapM (readFlat fields) = .ok items :=
        mapM_readFlat_skewed hnodup hitems h
      simp only [read, Value.items, hread]
      rfl

/-- If the values of all known members can be read, these members are what is read. -/
theorem Schema.readMembers_ok {s : Schema} {received : Record}
    (h : ∀ e ∈ received, ∀ m ∈ s.find? e.1, ∃ v, m.content.read e.2 = .ok v) :
    ∃ given, s.readMembers received = .ok given ∧
      ∀ name v, (name, v) ∈ given ↔
        ∃ w, (name, w) ∈ received ∧ ∃ m ∈ s.find? name, m.content.read w = .ok v := by
  induction received with
  | nil => exact ⟨[], rfl, by simp⟩
  | cons e received ih =>
    obtain ⟨key, w⟩ := e
    obtain ⟨hfirst, hrest⟩ := List.forall_mem_cons.1 h
    obtain ⟨given, hgiven, hmem⟩ := ih hrest
    cases hfound : s.find? key with
    | none =>
      refine ⟨given, by simp [readMembers, hfound, hgiven], fun name v => ?_⟩
      rw [hmem]
      constructor
      · rintro ⟨w, hw, hread⟩
        exact ⟨w, List.mem_cons_of_mem _ hw, hread⟩
      · rintro ⟨w', hw, m, hm, hread⟩
        rcases List.mem_cons.1 hw with heq | hw
        · obtain rfl := congrArg Prod.fst heq
          simp [hfound] at hm
        · exact ⟨w', hw, m, hm, hread⟩
    | some m =>
      obtain ⟨v, hv⟩ := hfirst m hfound
      refine ⟨(key, v) :: given, by simp [readMembers, hfound, hv, hgiven, Except.map],
        fun name u => ?_⟩
      rw [List.mem_cons, hmem]
      constructor
      · rintro (heq | ⟨w, hw, hread⟩)
        · obtain ⟨rfl, rfl⟩ := Prod.mk.inj heq
          exact ⟨w, List.mem_cons_self, m, hfound, hv⟩
        · exact ⟨w, List.mem_cons_of_mem _ hw, hread⟩
      · rintro ⟨w', hw, m', hm, hread⟩
        rcases List.mem_cons.1 hw with heq | hw
        · obtain ⟨rfl, rfl⟩ := Prod.mk.inj heq
          obtain rfl := Option.some.inj (hfound.symm.trans hm)
          exact .inl (by rw [Except.ok.inj (hread.symm.trans hv)])
        · exact .inr ⟨w', hw, m', hm, hread⟩

/-- The member of a name is found by it. -/
theorem Schema.find?_eq_some {s : Schema} (hnodup : (fieldNames s.fields).Nodup) {m : Member}
    (h : m ∈ s) : s.find? m.field.name = some m := by
  induction s with
  | nil => simp at h
  | cons first s ih =>
    simp only [fields, fieldNames, List.map_cons, List.nodup_cons] at hnodup
    rcases List.mem_cons.1 h with rfl | h
    · simp [find?]
    · have hne : first.field.name ≠ m.field.name := fun heq =>
        hnodup.1 (heq ▸ List.mem_map_of_mem (List.mem_map_of_mem h))
      have hrest := ih hnodup.2 h
      rw [find?] at hrest ⊢
      rw [List.find?_cons_of_neg (by simpa using hne), hrest]

theorem Schema.Holds.map_fst {s : Schema} {x : Record} (h : s.Holds x) :
    x.map Prod.fst = fieldNames s.fields := by
  rw [map_fst_eq h, fieldNames, fields, List.map_map]
  rfl

/-- Every member of a message has one value among what is received, and that is read as the member
    has it. -/
theorem Schema.Skewed.exists_read {s : Schema} {x received : Record} (hs : s.IsDistinct)
    (hx : s.Holds x) (h : s.Skewed x (.obj received)) :
    ∀ e ∈ x, ∃ m v, s.find? e.1 = some m ∧ (e.1, v) ∈ received ∧
      (∀ w, (e.1, w) ∈ received → w = v) ∧ m.content.read v = .ok e.2 := by
  obtain ⟨received, heq, h⟩ := h
  obtain rfl := Value.obj.inj heq
  intro e he
  obtain ⟨v, harrives, hmem, hunique⟩ := h.exists_arrives hs.1 hx.map_fst e he
  obtain ⟨m, hm, hname, hholds⟩ := exists_of_mem hx.flip he
  have hfound : s.find? e.1 = some m := hname ▸ Schema.find?_eq_some hs.1 hm
  exact ⟨m, v, hfound, hmem, hunique,
    Content.read_skewed (hs.2 m hm) hholds (harrives m hfound)⟩

/-- **What another version sends is read as it was written.** -/
theorem Schema.read_skewed {s : Schema} {x : Record} {v : Value} (hs : s.IsDistinct)
    (hx : s.Holds x) (h : s.Skewed x v) : s.read v = .ok x := by
  obtain ⟨received, rfl, -⟩ := id h
  have hreads := h.exists_read hs hx
  have hok : ∀ e ∈ received, ∀ m ∈ s.find? e.1, ∃ v, m.content.read e.2 = .ok v := by
    rintro ⟨name, w⟩ hw m hm
    have hmem : m ∈ s := List.mem_of_find?_eq_some hm
    have hname : m.field.name = name := by simpa using List.find?_some hm
    -- the member is one of the message, which has its only value
    obtain ⟨e, he, hkey, -⟩ := exists_of_mem hx hmem
    obtain ⟨m', v, hfound, -, hunique, hread⟩ := hreads e he
    rw [hkey, hname] at hfound hunique
    obtain rfl := Option.some.inj (hfound.symm.trans hm)
    exact ⟨e.2, hunique w hw ▸ hread⟩
  obtain ⟨given, hgiven, hmem⟩ := Schema.readMembers_ok hok
  have hlookup : ∀ e ∈ x, Value.lookup? e.1 given = some e.2 := by
    intro e he
    obtain ⟨m, v, hfound, hv, hunique, hread⟩ := hreads e he
    refine lookup?_eq_some ((hmem _ _).2 ⟨v, hv, m, hfound, hread⟩) fun u hu => ?_
    obtain ⟨w, hw, m', hfound', hread'⟩ := (hmem _ _).1 hu
    obtain rfl := Option.some.inj (hfound.symm.trans hfound')
    rw [hunique w hw, hread] at hread'
    exact (Except.ok.inj hread').symm
  simp only [read, hgiven, fill_eq hx.map_fst hlookup]

end RingScan.Wire
