import Mathlib.Data.List.MinMax
import RingScan.Plan.Split
import RingScan.Proofs.Json.RoundTrip
import RingScan.Proofs.Wire.VersionSkew

set_option autoImplicit false

/-! # Messages are read as they were written

A message whose members hold values of their declared types is written as a text, and the text is
read as that message, also if a node of another version adds members or sends them in another order
(`round_trip_skewed`). Three things come together for every class of messages: the values of its
types are legible, its members are held as they are read, and no two of them have one name. What is
particular to a class is no more than its table of types. -/

namespace RingScan.Wire

open List (Forall₂)

/-! ## Declared types -/

/-- The type of a member without messages inside. -/
inductive Kind where
  | text
  /-- A whole number that is not too long to be written. -/
  | whole
  | optional (k : Kind)
  | list (k : Kind)

/-- Whether a value is of a kind. -/
def Kind.Admits : Kind → Value → Prop
  | .text, v => ∃ s, v = .str s
  | .whole, v => ∃ n, v = .int n ∧ Integer.isWritable n = true
  | .optional k, v => v = .null ∨ k.Admits v
  | .list k, v => ∃ items, v = .arr items ∧ ∀ item ∈ items, k.Admits item

/-- How deep the values of a kind are nested. -/
def Kind.depth : Kind → Nat
  | .text => 0
  | .whole => 0
  | .optional k => k.depth
  | .list k => k.depth + 1

theorem Kind.Admits.legible {k : Kind} {v : Value} (h : k.Admits v) {n : Nat} (hn : k.depth ≤ n) :
    Json.Legible n v := by
  induction k generalizing v n with
  | text =>
    obtain ⟨s, rfl⟩ := h
    exact .str n s
  | whole =>
    obtain ⟨i, rfl, hi⟩ := h
    exact .int n hi
  | optional k ih =>
    rcases h with rfl | h
    · exact .null n
    · exact ih h hn
  | list k ih =>
    obtain ⟨items, rfl, hitems⟩ := h
    cases n with
    | zero => simp [depth] at hn
    | succ n => exact .arr fun item hitem => ih (hitems item hitem) (Nat.le_of_succ_le_succ hn)

/-- The type of a member: a kind, or a list of messages with these members. -/
inductive Declared where
  | kind (k : Kind)
  | entries (layout : List (Field × Kind))

/-- Whether a field may hold a value: one of its type, or null if it is null unless it is given. -/
def Field.Allows (f : Field) (type : Value → Prop) (v : Value) : Prop :=
  type v ∨ f.default? = some .null ∧ v = .null

/-- Whether a value is a message with members of these kinds. -/
def IsEntry (layout : List (Field × Kind)) (v : Value) : Prop :=
  ∃ r : Record, v = .obj r ∧
    Forall₂ (fun (l : Field × Kind) e => e.1 = l.1.name ∧ l.1.Allows l.2.Admits e.2) layout r

/-- Whether a value is of a declared type. -/
def Declared.Admits : Declared → Value → Prop
  | .kind k, v => k.Admits v
  | .entries layout, v => ∃ items, v = .arr items ∧ ∀ item ∈ items, IsEntry layout item

/-- How deep the values of a declared type are nested. -/
def Declared.depth : Declared → Nat
  | .kind k => k.depth
  | .entries layout => (layout.map fun l => l.2.depth).foldr max 0 + 2

theorem Field.Allows.imp {f : Field} {P Q : Value → Prop} (h : ∀ v, P v → Q v) (hnull : Q .null)
    {v : Value} (hv : f.Allows P v) : Q v := by
  rcases hv with hv | ⟨-, rfl⟩
  · exact h v hv
  · exact hnull

/-- Whether the values of a declared type are those that a member reads. -/
def Declared.Fits (d : Declared) (m : Member) : Prop :=
  match m.content, d with
  | .plain, .kind _ => True
  | .sequence, .kind (.list _) => m.field.default? ≠ some .null
  | .records fields, .entries layout => layout.map Prod.fst = fields
  | _, _ => False

theorem map_fst_entry {layout : List (Field × Kind)} {r : Record}
    (hr : Forall₂ (fun (l : Field × Kind) e => e.1 = l.1.name ∧ l.1.Allows l.2.Admits e.2)
      layout r) : r.map Prod.fst = fieldNames (layout.map Prod.fst) := by
  rw [map_fst_eq hr, fieldNames, List.map_map]
  rfl

theorem IsEntry.holdsFlat {layout : List (Field × Kind)} {v : Value} (h : IsEntry layout v) :
    HoldsFlat (layout.map Prod.fst) v := by
  obtain ⟨r, rfl, hr⟩ := h
  exact ⟨r, rfl, map_fst_entry hr⟩

theorem IsEntry.legible {layout : List (Field × Kind)} {v : Value} (h : IsEntry layout v)
    (hnodup : (fieldNames (layout.map Prod.fst)).Nodup) {n : Nat}
    (hn : ∀ l ∈ layout, l.2.depth ≤ n) : Json.Legible (n + 1) v := by
  obtain ⟨r, rfl, hr⟩ := h
  refine .obj (map_fst_entry hr ▸ hnodup) fun e he => ?_
  obtain ⟨l, hl, -, hallows⟩ := exists_of_mem hr.flip he
  exact hallows.imp (fun v hv => hv.legible (hn l hl)) (.null n)

/-- What is allowed in a member is legible. -/
theorem Declared.Fits.legible {d : Declared} {m : Member} (h : d.Fits m)
    (hnodup : (fieldNames m.content.fields).Nodup) {v : Value} (hv : m.field.Allows d.Admits v)
    {n : Nat} (hn : d.depth ≤ n) : Json.Legible n v := by
  have htype : ∀ w, d.Admits w → Json.Legible n w := by
    intro w hw
    cases d with
    | kind k => exact hw.legible hn
    | entries layout =>
      obtain ⟨f, content⟩ := m
      cases content with
      | records fields =>
        obtain rfl : layout.map Prod.fst = fields := h
        obtain ⟨items, rfl, hitems⟩ := hw
        simp only [depth] at hn
        obtain ⟨n, rfl⟩ := Nat.exists_eq_add_of_le' (Nat.le_trans (Nat.le_add_left 2 _) hn)
        refine .arr fun item hitem => (hitems item hitem).legible hnodup fun l hl => ?_
        have hmax : l.2.depth ≤ (layout.map fun l => l.2.depth).foldr max 0 :=
          List.le_max_of_le' 0 (List.mem_map.2 ⟨l, hl, rfl⟩) (Nat.le_refl _)
        omega
      | _ => exact h.elim
  exact hv.imp htype (.null n)

/-- What is allowed in a member is held as it is read. -/
theorem Declared.Fits.holds {d : Declared} {m : Member} (h : d.Fits m) {v : Value}
    (hv : m.field.Allows d.Admits v) : m.content.Holds v := by
  obtain ⟨f, content⟩ := m
  cases content with
  | plain => trivial
  | sequence =>
    rcases d with (_ | _ | _ | k) | _
    case kind.list =>
      rcases hv with ⟨items, rfl, -⟩ | ⟨hnull, -⟩
      · exact ⟨items, rfl⟩
      · exact absurd hnull h
    all_goals exact h.elim
  | record fields => cases d <;> exact h.elim
  | records fields =>
    cases d with
    | kind k => exact h.elim
    | entries layout =>
      obtain rfl : layout.map Prod.fst = fields := h
      rcases hv with ⟨items, rfl, hitems⟩ | ⟨-, rfl⟩
      · exact .inr ⟨items, rfl, fun item hitem => (hitems item hitem).holdsFlat⟩
      · exact .inl rfl

/-! ## Classes of messages -/

/-- The classes of messages. -/
inductive MessageClass where
  | loginRequest
  | splitsRequest
  | errorResponse
  | keyspaceResponse
  | loginResponse
  | ringEntry
  | ringResponse
  | splitEntry
  | splitsResponse
  | splitTokensResponse
  | identifier
  | split
  deriving DecidableEq

/-- The kinds of the members of a range of the ring. An address for clients may be unset. -/
def ringEntryKinds : List Kind := [.text, .text, .list .text, .list (.optional .text)]

/-- The kinds of the members of a part of a range. -/
def splitEntryKinds : List Kind := [.text, .text, .whole]

namespace MessageClass

/-- The members of a class. -/
def schema : MessageClass → Schema
  | loginRequest => Wire.loginRequest
  | splitsRequest => Wire.splitsRequest
  | errorResponse => Wire.errorResponse
  | keyspaceResponse => Wire.keyspaceResponse
  | loginResponse => Wire.loginResponse
  | ringEntry => Wire.ringEntry
  | ringResponse => Wire.ringResponse
  | splitEntry => Wire.splitEntry
  | splitsResponse => Wire.splitsResponse
  | splitTokensResponse => Wire.splitTokensResponse
  | identifier => Wire.identifier
  | split => Wire.split

/-- The types of the members of a class, in their order. -/
def declared : MessageClass → List Declared
  | loginRequest => [.kind .text, .kind .text]
  | splitsRequest => [.kind .text, .kind .text, .kind .whole]
  | errorResponse => [.kind .text, .kind .text, .kind .text, .kind .whole]
  | keyspaceResponse => [.kind .text]
  | loginResponse => [.kind .text]
  | ringEntry => ringEntryKinds.map .kind
  | ringResponse => [.entries (ringEntryFields.zip ringEntryKinds)]
  | splitEntry => splitEntryKinds.map .kind
  | splitsResponse => [.entries (splitEntryFields.zip splitEntryKinds)]
  | splitTokensResponse => [.kind (.list .text)]
  | identifier => [.kind .text, .kind .text]
  | split => [.kind .text, .kind .text, .kind .whole, .kind (.list .text)]

/-- The members of a class with their types. -/
def layout (c : MessageClass) : List (Member × Declared) := c.schema.zip c.declared

/-- Whether a record is a message of a class: its members are those of the class, in their order,
    and hold values of their types. -/
def Holds (c : MessageClass) (x : Record) : Prop :=
  Forall₂ (fun (l : Member × Declared) e =>
    e.1 = l.1.field.name ∧ l.1.field.Allows l.2.Admits e.2) c.layout x

theorem map_fst_layout (c : MessageClass) : c.layout.map Prod.fst = c.schema := by
  cases c <;> rfl

theorem isDistinct_schema (c : MessageClass) : c.schema.IsDistinct := by
  cases c <;> decide

/-- The types of a class are those that its members read. -/
theorem fits (c : MessageClass) : ∀ l ∈ c.layout, l.2.Fits l.1 := by
  cases c <;>
    simp [layout, schema, declared, Wire.loginRequest, Wire.splitsRequest, Wire.errorResponse,
      Wire.keyspaceResponse, Wire.loginResponse, Wire.ringEntry, Wire.ringResponse,
      Wire.splitEntry, Wire.splitsResponse, Wire.splitTokensResponse, Wire.identifier,
      Wire.split, identifierFields, ringEntryFields, ringEntryKinds, splitEntryFields,
      splitEntryKinds, Field.plain, Field.required, Field.optional, Declared.Fits]

theorem depth_le (c : MessageClass) : ∀ l ∈ c.layout, l.2.depth ≤ 3 := by
  cases c <;> decide

/-- A message of a class is held as it is read. -/
theorem Holds.schema {c : MessageClass} {x : Record} (h : c.Holds x) : c.schema.Holds x := by
  rw [← map_fst_layout c, Schema.Holds, List.forall₂_map_left_iff]
  obtain ⟨hlength, hzip⟩ := List.forall₂_iff_zip.1 h
  refine List.forall₂_iff_zip.2 ⟨hlength, fun {l e} hmem => ?_⟩
  obtain ⟨hname, hallows⟩ := hzip hmem
  exact ⟨hname, (fits c l (List.of_mem_zip hmem).1).holds hallows⟩

/-- A message of a class is legible. -/
theorem Holds.legible {c : MessageClass} {x : Record} (h : c.Holds x) :
    Json.Legible Json.maxDepth (.obj x) := by
  have hnodup : (x.map Prod.fst).Nodup := h.schema.map_fst ▸ (isDistinct_schema c).1
  refine .obj hnodup fun e he => ?_
  obtain ⟨l, hl, -, hallows⟩ := exists_of_mem (List.Forall₂.flip h) he
  have hmember : l.1 ∈ c.schema := map_fst_layout c ▸ List.mem_map_of_mem hl
  exact (fits c l hl).legible ((isDistinct_schema c).2 l.1 hmember) hallows
    (Nat.le_trans (depth_le c l hl) (by decide))

variable {c : MessageClass} {x : Record} {v : Value}

theorem Holds.read_skewed (h : c.Holds x) (hv : c.schema.Skewed x v) : c.schema.read v = .ok x :=
  Schema.read_skewed c.isDistinct_schema h.schema hv

theorem Holds.readText_skewed (h : c.Holds x) (hv : c.schema.Skewed x v) {text : String}
    (ht : Json.ofText text = .ok v) : c.schema.readText text = .ok x := by
  rw [Schema.readText, ht]
  exact h.read_skewed hv

/-- What a message arrives as can be written and read. -/
theorem Holds.exists_text (h : c.Holds x) (hv : c.schema.Skewed x v)
    (hlegible : Json.Legible Json.maxDepth v) :
    ∃ text, Json.toText v = .ok text ∧ c.schema.readText text = .ok x :=
  ⟨_, hlegible.toText_eq, h.readText_skewed hv (hlegible.ofText_toText hlegible.toText_eq)⟩

end MessageClass

/-- **Messages are read as they were written**, between versions, too. A message of a class whose
    members hold values of their types has a text, and that is read as the message. Whatever value
    the message arrives as, with members of other names put in and with members in other orders, in
    the message itself and in the messages inside of it, is read as the message. So is every text of
    such a value, above all the one that it is written as. -/
theorem round_trip_skewed (c : MessageClass) (x : Record) (h : c.Holds x) :
    (∃ text, x.toText = .ok text ∧ c.schema.readText text = .ok x) ∧
    ∀ v, c.schema.Skewed x v →
      c.schema.read v = .ok x ∧
      (∀ text, Json.ofText text = .ok v → c.schema.readText text = .ok x) ∧
      (Json.Legible Json.maxDepth v →
        ∃ text, Json.toText v = .ok text ∧ c.schema.readText text = .ok x) :=
  ⟨h.exists_text (.refl c.schema x) h.legible,
    fun _ hv => ⟨h.read_skewed hv, fun _ ht => h.readText_skewed hv ht, h.exists_text hv⟩⟩

/-- A range of a ring, whose replica has no address for clients. -/
def oneRange : Value :=
  .obj [("startToken", .str "0"), ("endToken", .str "9"), ("endpoints", .arr [.str "a"]),
    ("rpcEndpoints", .arr [.null])]

/-- The same range from a node of another version. -/
def oneRangeSkewed : Value :=
  .obj [("rpcEndpoints", .arr [.null]), ("zone", .str "z"), ("endToken", .str "9"),
    ("startToken", .str "0"), ("endpoints", .arr [.str "a"])]

theorem oneRange_round_trip_skewed :
    Wire.ringResponse.read (.obj [("version", .int 2), ("ranges", .arr [oneRangeSkewed])]) =
      .ok [("ranges", .arr [oneRange])] := by
  have hentry : IsEntry (ringEntryFields.zip ringEntryKinds) oneRange :=
    ⟨_, rfl, .cons ⟨rfl, .inl ⟨"0", rfl⟩⟩ <| .cons ⟨rfl, .inl ⟨"9", rfl⟩⟩ <|
      .cons ⟨rfl, .inl ⟨_, rfl, by simp [Kind.Admits]⟩⟩ <|
      .cons ⟨rfl, .inl ⟨_, rfl, by simp [Kind.Admits]⟩⟩ .nil⟩
  have hholds : MessageClass.ringResponse.Holds [("ranges", .arr [oneRange])] :=
    .cons ⟨rfl, .inl ⟨_, rfl, List.forall_mem_singleton.2 hentry⟩⟩ .nil
  have hrange : SkewedFlat ringEntryFields oneRange oneRangeSkewed :=
    ⟨_, rfl, _, [("zone", .str "z")], List.forall₂_same.2 fun _ _ => ⟨rfl, rfl⟩, by decide,
      by decide⟩
  have hskewed : Wire.ringResponse.Skewed [("ranges", .arr [oneRange])]
      (.obj [("version", .int 2), ("ranges", .arr [oneRangeSkewed])]) := by
    refine ⟨_, rfl, [("ranges", .arr [oneRangeSkewed])], [("version", .int 2)],
      .cons ⟨rfl, ?_⟩ .nil, by decide, .swap _ _ _⟩
    rintro m ⟨⟩
    exact ⟨_, rfl, .cons hrange .nil⟩
  exact ((round_trip_skewed .ringResponse _ hholds).2 _ hskewed).1

end RingScan.Wire

namespace RingScan.Plan

open Wire (MessageClass)

/-- A split is read back from its text. -/
theorem Split.ofText_toText {s : Split} (h : MessageClass.split.Holds s.record) :
    ∃ text, s.toText = .ok text ∧ Split.ofText text = .ok s := by
  obtain ⟨text, htext, hread⟩ := h.exists_text (.refl _ s.record) h.legible
  refine ⟨text, htext, ?_⟩
  have hread : Wire.split.readText text = .ok s.record := hread
  rw [Split.ofText, hread]
  rfl

end RingScan.Plan
