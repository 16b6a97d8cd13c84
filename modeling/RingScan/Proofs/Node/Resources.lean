import RingScan.Node.Basic
import RingScan.Proofs.Plan.Points
import RingScan.Proofs.Text.PercentRoundTrip

set_option autoImplicit false

/-! # What the paths of a node lead to

A path is the usual root and a row of segments, some of which are words of the calls and some the
names of keyspaces and tables (`Resource.path_eq`). A name is free of slashes once it is encoded, so
splitting a path at its slashes gives the segments again, and where the names stand among them is
told by the words. A path can therefore be read back (`Resource.ofPath_of_path`): no two resources
share one, whatever their names are (`Resource.path_unambiguous`). -/

namespace RingScan

/-! ## Texts that have bytes -/

namespace Text

theorem plain_held (t : String) : Surrogate.plain (Surrogate.held t) = .ok t := by
  have h : Surrogate.plain? (Surrogate.held t).toList = some t.toList :=
    Surrogate.plain?_eq_some_iff.2 (by rw [Surrogate.held, String.toList_ofList])
  rw [Surrogate.plain, h]
  simp

theorem plain_of_not_isPlain {s : String} (h : ¬ Surrogate.isPlain s = true) :
    Surrogate.plain s = .error .unencodable := by
  rw [Surrogate.isPlain, Option.not_isSome_iff_eq_none] at h
  rw [Surrogate.plain, h]

theorem exists_held_of_isPlain {s : String} (h : Surrogate.isPlain s = true) :
    ∃ t, s = Surrogate.held t := by
  obtain ⟨cs, hcs⟩ := Option.isSome_iff_exists.1 h
  refine ⟨String.ofList cs, ?_⟩
  rw [Surrogate.held, String.toList_ofList, ← Surrogate.plain?_eq_some_iff.1 hcs,
    String.ofList_toList]

end Text

namespace Node

/-! ## Segments -/

/-- A segment of a path. -/
inductive Segment where
  /-- A word of the calls, in one piece. -/
  | word (w : String) (whole : '/' ∉ w.toList := by decide)
  /-- The name of a keyspace or a table, as it is held. -/
  | name (s : String)

namespace Segment

/-- What stands for a segment in a path. -/
def text : Segment → Except Fault String
  | word w _ => .ok w
  | name s => (Name.ofValue (.str s)).map Name.segment

/-- The name that percent-decoding gives. -/
def readName (text : String) : Option String :=
  (Text.Percent.decode text.toList).map fun cs => Text.Surrogate.held (String.ofList cs)

/-- Whether a segment is read from a text: words as they stand, names by percent-decoding. -/
def IsReadFrom : Segment → String → Prop
  | word w _, text => text = w
  | name s, text => readName text = some s

/-- Whether a segment has bytes. -/
def IsEncodable : Segment → Prop
  | word .. => True
  | name s => Text.Surrogate.isPlain s = true

instance : DecidablePred IsEncodable
  | word .. => inferInstanceAs (Decidable True)
  | name s => inferInstanceAs (Decidable (Text.Surrogate.isPlain s = true))

end Segment

/-! ## Resources -/

/-- What the paths of a node lead to. Names are texts as they are held. -/
inductive Resource where
  | login
  | keyspace (keyspace : String)
  | ring (keyspace : String)
  | table (keyspace table : String)
  | splits (keyspace table : String)
  | splitTokens (keyspace table : String)
  deriving DecidableEq

namespace Resource

/-- Where a resource is, if its names have bytes. -/
def path : Resource → Except Fault String
  | login => .ok paths.login
  | keyspace k => do return paths.keyspace (← Name.ofValue (.str k))
  | ring k => do return paths.ring (← Name.ofValue (.str k))
  | table k t => do return paths.table (← Name.ofValue (.str k)) (← Name.ofValue (.str t))
  | splits k t => do return paths.splits (← Name.ofValue (.str k)) (← Name.ofValue (.str t))
  | splitTokens k t =>
      do return paths.splitTokens (← Name.ofValue (.str k)) (← Name.ofValue (.str t))

/-- The segments of the path of a resource. -/
def segments : Resource → List Segment
  | login => [.word "login"]
  | keyspace k => [.word "keyspaces", .name k]
  | ring k => [.word "keyspaces", .name k, .word "ring"]
  | table k t => [.word "keyspaces", .name k, .word "tables", .name t]
  | splits k t => [.word "keyspaces", .name k, .word "tables", .name t, .word "splits"]
  | splitTokens k t =>
      [.word "keyspaces", .name k, .word "tables", .name t, .word "split-tokens"]

/-- Whether the names of a resource have bytes. -/
def IsEncodable (r : Resource) : Prop := ∀ segment ∈ r.segments, segment.IsEncodable

instance : DecidablePred IsEncodable :=
  fun r => inferInstanceAs (Decidable (∀ segment ∈ r.segments, segment.IsEncodable))

/-- The resource that the segments of a path tell of. -/
def ofSegments : List String → Option Resource
  | ["login"] => some login
  | ["keyspaces", k] => (Segment.readName k).map keyspace
  | ["keyspaces", k, "ring"] => (Segment.readName k).map ring
  | ["keyspaces", k, "tables", t] => do return table (← Segment.readName k) (← Segment.readName t)
  | ["keyspaces", k, "tables", t, "splits"] =>
      do return splits (← Segment.readName k) (← Segment.readName t)
  | ["keyspaces", k, "tables", t, "split-tokens"] =>
      do return splitTokens (← Segment.readName k) (← Segment.readName t)
  | _ => none

/-- The resource that a path leads to. -/
def ofPath (path : String) : Option Resource :=
  match (path.toList.splitOn '/').map String.ofList with
  | "" :: "v1" :: texts => ofSegments texts
  | _ => none

end Resource

/-! ## Writing segments -/

theorem Name.ofValue_held (t : String) :
    Name.ofValue (.str (Text.Surrogate.held t)) = .ok (.text t) := by
  rw [Name.ofValue, Text.plain_held]
  rfl

theorem Name.ofValue_of_not_isPlain {s : String} (h : ¬ Text.Surrogate.isPlain s = true) :
    Name.ofValue (.str s) = .error .unencodable := by
  rw [Name.ofValue, Text.plain_of_not_isPlain h]
  rfl

namespace Segment

variable {segment : Segment}

/-- The name of a keyspace or a table is read as it was, whatever is in it. -/
theorem readName_segment (t : String) :
    readName (Name.text t).segment = some (Text.Surrogate.held t) := by
  rw [readName, Name.segment, String.toList_ofList, Text.Percent.decode_encode, Option.map_some,
    String.ofList_toList]

theorem slash_not_mem_segment (t : String) : '/' ∉ (Name.text t).segment.toList := by
  rw [Name.segment, String.toList_ofList]
  exact Text.Percent.slash_not_mem_encode t.toList

/-- What can be written is written in one piece, so that it can be read. -/
theorem exists_text (h : segment.IsEncodable) :
    ∃ text, segment.text = .ok text ∧ '/' ∉ text.toList ∧ segment.IsReadFrom text := by
  cases segment with
  | word w whole => exact ⟨w, rfl, whole, rfl⟩
  | name s =>
    obtain ⟨t, rfl⟩ := Text.exists_held_of_isPlain h
    refine ⟨(Name.text t).segment, ?_, slash_not_mem_segment t, readName_segment t⟩
    rw [text, Name.ofValue_held]
    rfl

theorem text_of_not_isEncodable (h : ¬ segment.IsEncodable) :
    segment.text = .error .unencodable := by
  cases segment with
  | word w => exact absurd trivial h
  | name s =>
    rw [text, Name.ofValue_of_not_isPlain h]
    rfl

/-! ## Rows of segments -/

variable {segments : List Segment}

theorem exists_texts (h : ∀ segment ∈ segments, segment.IsEncodable) :
    ∃ texts, segments.mapM text = .ok texts ∧ (∀ t ∈ texts, '/' ∉ t.toList) ∧
      List.Forall₂ IsReadFrom segments texts := by
  induction segments with
  | nil => exact ⟨[], rfl, by simp, .nil⟩
  | cons segment segments ih =>
    obtain ⟨hhead, htail⟩ := List.forall_mem_cons.1 h
    obtain ⟨t, ht, hwhole, hread⟩ := exists_text hhead
    obtain ⟨texts, htexts, hall, hreads⟩ := ih htail
    refine ⟨t :: texts, ?_, List.forall_mem_cons.2 ⟨hwhole, hall⟩, .cons hread hreads⟩
    rw [List.mapM_cons, ht, htexts]
    rfl

theorem texts_of_not_isEncodable (h : ¬ ∀ segment ∈ segments, segment.IsEncodable) :
    segments.mapM text = .error .unencodable := by
  induction segments with
  | nil => exact absurd (by simp) h
  | cons segment segments ih =>
    rw [List.mapM_cons]
    by_cases hhead : segment.IsEncodable
    · obtain ⟨t, ht, -⟩ := exists_text hhead
      rw [ht, ih fun htail => h (List.forall_mem_cons.2 ⟨hhead, htail⟩)]
      rfl
    · rw [text_of_not_isEncodable hhead]
      rfl

/-- The path of a row of segments. -/
def join (texts : List String) : String := "/v1/" ++ "/".intercalate texts

/-- A path is split into its segments again. -/
theorem splitOn_join {texts : List String} (hne : texts ≠ [])
    (h : ∀ t ∈ texts, '/' ∉ t.toList) :
    ((join texts).toList.splitOn '/').map String.ofList = "" :: "v1" :: texts := by
  obtain ⟨t, texts, rfl⟩ := List.exists_cons_of_ne_nil hne
  have hrow : (join (t :: texts)).toList =
      List.intercalate ['/'] (([] :: "v1".toList :: (t :: texts).map String.toList)) := by
    rw [join, String.toList_append, String.toList_intercalate, List.map_cons,
      List.intercalate_cons_cons, List.intercalate_cons_cons]
    simp
  have hwhole : ∀ cs ∈ [] :: "v1".toList :: (t :: texts).map String.toList, '/' ∉ cs := by
    simpa using h
  rw [hrow, List.splitOn_intercalate '/' hwhole (List.cons_ne_nil _ _)]
  simp [Function.comp_def]

end Segment

namespace Resource

variable {r s : Resource}

/-! ## Paths -/

section Rows

variable (k t : Name)

/-- The usual root is that of the first version of the calls. -/
theorem base_paths : paths.base = "/v1" := by decide

theorem paths_login : paths.login = Segment.join ["login"] := by decide

theorem paths_keyspace : paths.keyspace k = Segment.join ["keyspaces", k.segment] := by
  simp [← String.toList_inj, Paths.keyspace, Segment.join, base_paths]

theorem paths_ring : paths.ring k = Segment.join ["keyspaces", k.segment, "ring"] := by
  simp [← String.toList_inj, Paths.ring, paths_keyspace, Segment.join]

theorem paths_table :
    paths.table k t = Segment.join ["keyspaces", k.segment, "tables", t.segment] := by
  simp [← String.toList_inj, Paths.table, paths_keyspace, Segment.join]

theorem paths_splits :
    paths.splits k t = Segment.join ["keyspaces", k.segment, "tables", t.segment, "splits"] := by
  simp [← String.toList_inj, Paths.splits, paths_table, Segment.join]

theorem paths_splitTokens :
    paths.splitTokens k t =
      Segment.join ["keyspaces", k.segment, "tables", t.segment, "split-tokens"] := by
  simp [← String.toList_inj, Paths.splitTokens, paths_table, Segment.join]

end Rows

/-- The path of a resource is the row of its segments. -/
theorem path_eq (r : Resource) : r.path = (r.segments.mapM Segment.text).map Segment.join := by
  cases r with
  | login => exact congrArg Except.ok paths_login
  | keyspace k | ring k =>
    simp only [path, segments, List.mapM_cons, List.mapM_nil, Segment.text]
    cases Name.ofValue (.str k) with
    | error f => rfl
    | ok k' => exact congrArg Except.ok (by simp only [paths_keyspace, paths_ring])
  | table k t | splits k t | splitTokens k t =>
    simp only [path, segments, List.mapM_cons, List.mapM_nil, Segment.text]
    cases Name.ofValue (.str k) with
    | error f => rfl
    | ok k' =>
      cases Name.ofValue (.str t) with
      | error f => rfl
      | ok t' =>
        exact congrArg Except.ok (by simp only [paths_table, paths_splits, paths_splitTokens])

/-- What the segments of a resource tell of is the resource. -/
theorem ofSegments_eq_some {texts : List String}
    (h : List.Forall₂ Segment.IsReadFrom r.segments texts) : ofSegments texts = some r := by
  cases r with
  | login =>
    obtain _ | ⟨rfl, _ | _⟩ := h
    rfl
  | keyspace k =>
    obtain _ | ⟨rfl, _ | ⟨hk : Segment.readName _ = some k, _ | _⟩⟩ := h
    simp [ofSegments, hk]
  | ring k =>
    obtain _ | ⟨rfl, _ | ⟨hk : Segment.readName _ = some k, _ | ⟨rfl, _ | _⟩⟩⟩ := h
    simp [ofSegments, hk]
  | table k t =>
    obtain _ | ⟨rfl, _ | ⟨hk : Segment.readName _ = some k, _ | ⟨rfl, _ |
      ⟨ht : Segment.readName _ = some t, _ | _⟩⟩⟩⟩ := h
    simp [ofSegments, hk, ht]
  | splits k t | splitTokens k t =>
    obtain _ | ⟨rfl, _ | ⟨hk : Segment.readName _ = some k, _ | ⟨rfl, _ |
      ⟨ht : Segment.readName _ = some t, _ | ⟨rfl, _ | _⟩⟩⟩⟩⟩ := h
    simp [ofSegments, hk, ht]

theorem segments_ne_nil (r : Resource) : r.segments ≠ [] := by
  cases r <;> exact List.cons_ne_nil _ _

/-- **The path of a resource whose names have bytes.** -/
theorem exists_texts (h : r.IsEncodable) :
    ∃ texts, r.path = .ok (Segment.join texts) ∧ (∀ text ∈ texts, '/' ∉ text.toList) ∧
      List.Forall₂ Segment.IsReadFrom r.segments texts := by
  obtain ⟨texts, htexts, hwhole, hread⟩ := Segment.exists_texts h
  refine ⟨texts, ?_, hwhole, hread⟩
  rw [path_eq, htexts]
  rfl

theorem path_of_not_isEncodable (h : ¬ r.IsEncodable) : r.path = .error .unencodable := by
  rw [path_eq, Segment.texts_of_not_isEncodable h]
  rfl

/-- A path leads to the resource that it is the path of. -/
theorem ofPath_of_path {path : String} (h : r.path = .ok path) : ofPath path = some r := by
  by_cases hr : r.IsEncodable
  · obtain ⟨texts, hpath, hwhole, hread⟩ := exists_texts hr
    obtain rfl := Except.ok.inj (hpath.symm.trans h)
    have hne : texts ≠ [] := by
      rintro rfl
      exact segments_ne_nil r (List.forall₂_nil_right_iff.1 hread)
    rw [ofPath, Segment.splitOn_join hne hwhole]
    exact ofSegments_eq_some hread
  · rw [path_of_not_isEncodable hr] at h
    cases h

/-- **No two resources share a path.** A resource has a path if its names have bytes. The path is
    the root and a row of segments without slashes; percent-decoding gives the names back, and it is
    the path of no other resource. -/
theorem path_unambiguous (r : Resource) :
    ¬ r.IsEncodable ∧ r.path = .error .unencodable ∨
      r.IsEncodable ∧ ∃ texts : List String,
        r.path = .ok ("/v1/" ++ "/".intercalate texts) ∧
        (∀ text ∈ texts, '/' ∉ text.toList) ∧
        List.Forall₂ Segment.IsReadFrom r.segments texts ∧
        ∀ s : Resource, s.path = r.path ↔ s = r := by
  by_cases h : r.IsEncodable
  · obtain ⟨texts, hpath, hwhole, hread⟩ := exists_texts h
    refine .inr ⟨h, texts, hpath, hwhole, hread, fun s => ⟨fun hs => ?_, congrArg path⟩⟩
    have hofPath := ofPath_of_path (hs.trans hpath)
    exact Option.some.inj (hofPath.symm.trans (ofPath_of_path hpath))
  · exact .inl ⟨h, path_of_not_isEncodable h⟩

/-- A name with the look of a path stays a name, and nothing else is found where it is. -/
theorem path_unambiguous_slash :
    (splits "a/ring" "50% ü").path =
        .ok "/v1/keyspaces/a%2Fring/tables/50%25%20%C3%BC/splits" ∧
      ∀ s : Resource, s.path = (splits "a/ring" "50% ü").path ↔ s = splits "a/ring" "50% ü" := by
  have hencodable : (splits "a/ring" "50% ü").IsEncodable := by decide
  rcases path_unambiguous (splits "a/ring" "50% ü") with ⟨h, -⟩ | ⟨-, -, -, -, -, hsame⟩
  · exact absurd hencodable h
  · exact ⟨by decide, hsame⟩

end Resource

end Node

end RingScan
