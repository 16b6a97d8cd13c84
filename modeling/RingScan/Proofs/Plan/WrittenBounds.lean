import RingScan.Proofs.Plan.Reassembly
import RingScan.Proofs.Ring.Bounds

set_option autoImplicit false

/-! # Written bounds

Tokens are read from texts in many spellings and written in one. Here writing may fail, since a
whole number can have too many digits (`Token.write`); what was read from a text never does, and is
read back as it was, so that writing what is read is a normal form of texts
(`Token.normalize_of_ofText`). Splits and tasks are between tokens that are written. They are read
back, one by one and in order, as the arcs that they were made of: pieces of parts, and what ranges
have in common with an arc (`written_bounds_read_back`). -/

namespace RingScan

/-! ## Tokens -/

namespace Token

variable {p : Partitioner} {t : Token p} {v : Value}

/-- Whether a token can be written: a whole number may have too many digits. -/
def IsWritable : Token p → Prop
  | .position x => x.isWritable = true
  | .foreign _ => True

/-- The written form of a token, if it has one. -/
def write : Token p → Except Fault Value
  | .position x =>
      if x.isWritable then .ok (.str x.render) else .error (.invalid Integer.unwritableMessage)
  | .foreign v => .ok v

/-- The written form of the token that a text is read as. -/
def normalize (p : Partitioner) (s : String) : Except Fault Value :=
  match ofText p s with
  | .ok t => t.write
  | .error e => .error e.toFault

/-- Whether a token is read back from its written form. -/
def ReadsBack (t : Token p) : Prop := read p t.render = .ok t

/-- Whether a value can be written if it is read as a token. -/
def ReadsWritable (p : Partitioner) (v : Value) : Prop := ∀ t, read p v = .ok t → t.IsWritable

theorem write_eq_render (h : t.IsWritable) : t.write = .ok t.render := by
  cases t with
  | position x => exact if_pos h
  | foreign v => rfl

theorem readsBack_position {x : p.Position} (h : x.isWritable = true) :
    (position x).ReadsBack := read_render h

/-- Only where tokens are taken as they are is anything foreign, and that is the value itself. -/
theorem eq_of_read_eq_foreign {w : Value} (h : read p v = .ok (.foreign w)) : w = v := by
  cases p with
  | murmur3 =>
    obtain ⟨n, -, hn⟩ := map_eq_ok.1 h
    cases hn
  | random =>
    obtain ⟨n, -, hn⟩ := map_eq_ok.1 h
    cases hn
  | byteOrdered =>
    obtain ⟨bs, -, hbs⟩ := map_eq_ok.1 h
    cases hbs
  | orderPreserving =>
    cases v <;> cases h <;> rfl

/-- What is read as a token and can be written is read back. -/
theorem readsBack_of_read (h : read p v = .ok t) (ht : t.IsWritable) : t.ReadsBack := by
  cases t with
  | position x => exact readsBack_position ht
  | foreign w =>
    obtain rfl := eq_of_read_eq_foreign h
    exact h

/-- A text is read as a token that can be written. -/
theorem readsWritable_str (p : Partitioner) (s : String) : ReadsWritable p (.str s) := by
  intro t ht
  obtain ⟨x, rfl, hx⟩ := exists_position_of_ofText ht
  exact hx

/-- So is a whole number that is not too long. -/
theorem readsWritable_int {n : ℤ} (h : Integer.isWritable n = true) :
    ReadsWritable p (.int n) := by
  intro t ht
  cases p with
  | murmur3 =>
    obtain rfl := Except.ok.inj ht
    exact h
  | random =>
    obtain rfl := Except.ok.inj ht
    exact h
  | byteOrdered => cases ht
  | orderPreserving =>
    obtain rfl := Except.ok.inj ht
    trivial

/-- **The written form of what is read from a text** is a text that is read as the same token, and
    the normal form of both texts. -/
theorem normalize_of_ofText {s : String} (h : ofText p s = .ok t) :
    ∃ c : String, t.write = .ok (.str c) ∧ ofText p c = .ok t ∧
      normalize p s = .ok (.str c) ∧ normalize p c = .ok (.str c) := by
  obtain ⟨x, rfl, hx⟩ := exists_position_of_ofText h
  have hwrite : (position x).write = .ok (.str x.render) := write_eq_render hx
  have hback : ofText p x.render = .ok (position x) := read_render hx
  refine ⟨x.render, hwrite, hback, ?_, ?_⟩
  · rw [normalize, h]
    exact hwrite
  · rw [normalize, hback]
    exact hwrite

end Token

/-! ## Arcs -/

namespace TokenArc

variable {p : Partitioner} {a b : TokenArc p}

theorem ringBounded_readsBack (p : Partitioner) : RingBounded (Token.ReadsBack (p := p)) := by
  have hminimum : p.ring.Bounds p.ring.minimum :=
    ⟨Std.le_refl _, fun M hM => Std.le_of_lt (p.isProper_ring.minimum_lt M hM)⟩
  refine ⟨Token.readsBack_position (Partitioner.Position.isWritable_of_bounds hminimum), ?_⟩
  intro M hM
  have hmax : p.ring.last = M := by simp [Ring.last, Option.mem_def.1 hM]
  exact Token.readsBack_position (Partitioner.Position.isWritable_of_bounds (hmax ▸ hminimum.last))

theorem read_render_of_bounded (h : a.Bounded Token.ReadsBack) :
    read p a.left.render a.right.render = .ok a := by
  have hleft : Token.read p a.left.render = .ok a.left := h.left
  have hright : Token.read p a.right.render = .ok a.right := h.right
  rw [read, hleft, hright]

theorem bounded_of_read {v w : Value} (h : read p v w = .ok a) (hv : Token.ReadsWritable p v)
    (hw : Token.ReadsWritable p w) : a.Bounded Token.ReadsBack := by
  unfold read at h
  split at h
  · next l r hl hr =>
    obtain rfl := Except.ok.inj h
    exact ⟨Token.readsBack_of_read hl (hv l hl), Token.readsBack_of_read hr (hw r hr)⟩
  · exact absurd h (by simp)
  · exact absurd h (by simp)

end TokenArc

namespace Plan

open Token (ReadsWritable)

variable {p : Partitioner}

/-- Whether things are made of what items are cut into, one by one and in order. -/
def MadeOf {α β γ : Type} (cut : α → Except Fault (List β)) (R : β → γ → Prop) (items : List α)
    (made : List γ) : Prop :=
  ∃ pieces, items.mapM cut = .ok pieces ∧ List.Forall₂ R pieces.flatten made

namespace MadeOf

variable {α β γ : Type} {cut : α → Except Fault (List β)} {R : β → γ → Prop}

theorem nil : MadeOf cut R [] [] := ⟨[], rfl, .nil⟩

theorem cons {item : α} {items : List α} {pieces : List β} {made more : List γ}
    (h : cut item = .ok pieces) (hmade : List.Forall₂ R pieces made)
    (hmore : MadeOf cut R items more) : MadeOf cut R (item :: items) (made ++ more) := by
  obtain ⟨rest, hrest, hmore⟩ := hmore
  refine ⟨pieces :: rest, ?_, List.rel_append hmade hmore⟩
  rw [List.mapM_cons, h, hrest]
  rfl

end MadeOf

/-! ## Splits -/

/-- The pieces of a part, by the end of the ring. -/
def SubSplit.pieces (p : Partitioner) (part : SubSplit) : Except Fault (List (TokenArc p)) := do
  (← TokenArc.read p part.startToken part.endToken).unwrap

/-- Whether the tokens of a split are read as the bounds of an arc. -/
def Split.ReadsAs (a : TokenArc p) (s : Split) : Prop :=
  TokenArc.read p s.startToken s.endToken = .ok a

variable {part : SubSplit} {parts : List SubSplit} {locations : List Value}

/-- The splits of a part are read back as its pieces. -/
theorem SubSplit.splits_readsAs {splits : List Split} (h : part.splits p locations = .ok splits)
    (hstart : ReadsWritable p part.startToken) (hstop : ReadsWritable p part.endToken) :
    ∃ pieces, part.pieces p = .ok pieces ∧ List.Forall₂ Split.ReadsAs pieces splits := by
  obtain ⟨a, pieces, ha, hpieces, rfl⟩ := SubSplit.splits_ok h
  refine ⟨pieces, bind_eq_ok.2 ⟨a, ha, hpieces⟩, ?_⟩
  have hback := TokenArc.forall_unwrap (TokenArc.ringBounded_readsBack p)
    (TokenArc.bounded_of_read ha hstart hstop) hpieces
  refine List.forall₂_map_right_iff.2 (List.forall₂_same.2 fun x hx => ?_)
  exact TokenArc.read_render_of_bounded (hback x hx)

/-- Also if a part fails, the splits that are there are read back as the pieces of those before
    it. -/
theorem appendSplits_readsAs {output splits : List Split} {result : Except Fault Unit}
    (h : appendSplits p locations output parts = (splits, result))
    (hparts : ∀ part ∈ parts,
      ReadsWritable p part.startToken ∧ ReadsWritable p part.endToken) :
    ∃ done made, done <+: parts ∧ (result = .ok () → done = parts) ∧ splits = output ++ made ∧
      MadeOf (SubSplit.pieces p) Split.ReadsAs done made := by
  induction parts generalizing output with
  | nil =>
    obtain ⟨rfl, -⟩ := Prod.mk.inj h
    exact ⟨[], [], List.nil_prefix, fun _ => rfl, by simp, .nil⟩
  | cons part rest ih =>
    obtain ⟨⟨hstart, hstop⟩, hrest⟩ := List.forall_mem_cons.1 hparts
    rw [appendSplits] at h
    cases hpart : part.splits p locations with
    | error f =>
      simp only [hpart] at h
      obtain ⟨rfl, rfl⟩ := Prod.mk.inj h
      exact ⟨[], [], List.nil_prefix, by simp, by simp, .nil⟩
    | ok found =>
      simp only [hpart] at h
      obtain ⟨pieces, hpieces, hfound⟩ := SubSplit.splits_readsAs hpart hstart hstop
      obtain ⟨done, made, hdone, hall, rfl, hmade⟩ := ih h hrest
      refine ⟨part :: done, found ++ made, ?_, ?_, ?_, hmade.cons hpieces hfound⟩
      · exact List.cons_prefix_cons.2 ⟨rfl, hdone⟩
      · exact fun hok => congrArg _ (hall hok)
      · rw [List.append_assoc]

/-- The same of the splits of a range. -/
theorem assemble_readsAs {resolve : Resolver} {r : TokenRange} {output splits : List Split}
    {result : Except PlanningError Unit} (h : assemble p resolve r parts output = (splits, result))
    (hparts : ∀ part ∈ parts,
      ReadsWritable p part.startToken ∧ ReadsWritable p part.endToken) :
    ∃ done made, done <+: parts ∧ (result = .ok () → done = parts) ∧ splits = output ++ made ∧
      MadeOf (SubSplit.pieces p) Split.ReadsAs done made := by
  have hnone (hsame : splits = output) (hfailed : ¬ result = .ok ()) :
      ∃ done made, done <+: parts ∧ (result = .ok () → done = parts) ∧ splits = output ++ made ∧
        MadeOf (SubSplit.pieces p) Split.ReadsAs done made :=
    ⟨[], [], List.nil_prefix, fun hok => absurd hok hfailed, by simp [hsame], .nil⟩
  unfold assemble at h
  split_ifs at h
  · obtain ⟨rfl, rfl⟩ := Prod.mk.inj h
    exact hnone rfl (by simp)
  · cases hhosts : r.hosts resolve with
    | error f =>
      simp only [hhosts] at h
      obtain ⟨rfl, rfl⟩ := Prod.mk.inj h
      exact hnone rfl (by simp)
    | ok locations =>
      rcases happend : appendSplits p locations output parts with ⟨found, ended⟩
      simp only [hhosts, happend] at h
      obtain ⟨rfl, rfl⟩ := Prod.mk.inj h
      obtain ⟨done, made, hdone, hall, hmade⟩ := appendSplits_readsAs happend hparts
      refine ⟨done, made, hdone, fun hok => hall ?_, hmade⟩
      cases ended with
      | ok u => rfl
      | error f => exact absurd hok (by simp [Except.mapError])

/-! ## Tasks -/

/-- What a range has in common with an arc. -/
def TokenRange.common (job : Arc p.Position) (r : TokenRange) :
    Except Fault (List (TokenArc p)) := do
  (← r.arc p).intersection (.ofArc job)

/-- Whether the tokens of a task are read as the bounds of an arc. -/
def Task.ReadsAs (a : TokenArc p) (t : Task) : Prop := t.range.arc p = .ok a

variable {r : TokenRange} {ranges : List TokenRange} {job : Arc p.Position}

/-- The tasks of a range are read back as what it has in common with an arc. -/
theorem TokenRange.narrow_readsAs {rs : List TokenRange} (h : r.narrow job = .ok rs) (size : Value)
    (hstart : ReadsWritable p r.startToken) (hstop : ReadsWritable p r.endToken)
    (hjob : job.Bounded fun x => x.isWritable = true) :
    ∃ common, r.common job = .ok common ∧
      List.Forall₂ Task.ReadsAs common (rs.map fun piece => ⟨piece, size⟩) := by
  obtain ⟨a, common, ha, hcommon, rfl⟩ := TokenRange.narrow_ok h
  refine ⟨common, bind_eq_ok.2 ⟨a, ha, hcommon⟩, ?_⟩
  have hjob : (TokenArc.ofArc job).Bounded Token.ReadsBack :=
    ⟨Token.readsBack_position hjob.left, Token.readsBack_position hjob.right⟩
  have hback := TokenArc.forall_intersection (TokenArc.ringBounded_readsBack p)
    (TokenArc.bounded_of_read ha hstart hstop) hjob hcommon
  rw [List.map_map]
  refine List.forall₂_map_right_iff.2 (List.forall₂_same.2 fun x hx => ?_)
  exact TokenArc.read_render_of_bounded (hback x hx)

/-- The tasks of ranges are read back, one by one, as what the ranges have in common with an
    arc. -/
theorem restrict_readsAs {size : Value} {tasks : List Task}
    (h : restrict size (some job) ranges = .ok tasks)
    (hranges : ∀ r ∈ ranges, ReadsWritable p r.startToken ∧ ReadsWritable p r.endToken)
    (hjob : job.Bounded fun x => x.isWritable = true) :
    MadeOf (TokenRange.common job) Task.ReadsAs ranges tasks := by
  obtain ⟨narrowed, hnarrowed, rfl⟩ := map_eq_ok.1 h
  have hall := forall₂_of_mapM hnarrowed
  clear h hnarrowed
  induction hall with
  | nil => exact .nil
  | cons hr _ ih =>
    obtain ⟨⟨hstart, hstop⟩, hrest⟩ := List.forall_mem_cons.1 hranges
    obtain ⟨common, hcommon, htasks⟩ := TokenRange.narrow_readsAs hr size hstart hstop hjob
    rw [List.flatten_cons, List.map_append]
    exact (ih hrest).cons hcommon htasks

/-- **Tokens are read back from their texts.** Whatever text is read as a token, the token can be
    written, the written form is read as the same token, and writing what is read changes it no
    more. Every position is read back from its written form, whole numbers as long as that form is
    not too long. So the tokens of all splits that are assembled are read, one by one, as the bounds
    of the pieces of the parts that they were made of, and those of all tasks as the bounds of what
    the ranges have in common with an arc, provided that the values between which the parts and the
    ranges lie and the bounds of the arc are no whole numbers with too many digits. Texts never are,
    nor are the bounds of the arc of a restriction. -/
theorem tokens_read_back (p : Partitioner) :
    (∀ (s : String) (t : Token p), Token.ofText p s = .ok t → ∃ c : String,
      t.write = .ok (.str c) ∧ Token.ofText p c = .ok t ∧
        Token.normalize p s = .ok (.str c) ∧ Token.normalize p c = .ok (.str c)) ∧
    (∀ x : p.Position, x.isWritable = true → ∃ c : String,
      (Token.position x).write = .ok (.str c) ∧ Token.ofText p c = .ok (.position x)) ∧
    (∀ s : String, ReadsWritable p (.str s)) ∧
    (∀ n : ℤ, Integer.isWritable n = true → ReadsWritable p (.int n)) ∧
    (∀ (resolve : Resolver) (r : TokenRange) (parts : List SubSplit) (output splits : List Split)
      (result : Except PlanningError Unit),
      (∀ part ∈ parts, ReadsWritable p part.startToken ∧ ReadsWritable p part.endToken) →
      assemble p resolve r parts output = (splits, result) →
      ∃ done made, done <+: parts ∧ (result = .ok () → done = parts) ∧ splits = output ++ made ∧
        MadeOf (SubSplit.pieces p) Split.ReadsAs done made) ∧
    (∀ (restriction? : Option KeyRestriction) (job : Arc p.Position),
      jobArc p restriction? = .ok (some job) →
      job.left.isWritable = true ∧ job.right.isWritable = true) ∧
    (∀ (size : Value) (job : Arc p.Position) (ranges : List TokenRange) (tasks : List Task),
      job.left.isWritable = true → job.right.isWritable = true →
      (∀ r ∈ ranges, ReadsWritable p r.startToken ∧ ReadsWritable p r.endToken) →
      restrict size (some job) ranges = .ok tasks →
      MadeOf (TokenRange.common job) Task.ReadsAs ranges tasks) := by
  refine ⟨fun s t h => Token.normalize_of_ofText h, fun x hx => ?_, Token.readsWritable_str p,
    fun n hn => Token.readsWritable_int hn, ?_, ?_, ?_⟩
  · have hwritable : (Token.position x).IsWritable := hx
    exact ⟨x.render, Token.write_eq_render hwritable, Token.read_render hx⟩
  · intro resolve r parts output splits result hparts h
    exact assemble_readsAs h hparts
  · intro restriction? job h
    have hwithin := within_jobArc h
    exact ⟨Partitioner.Position.isWritable_of_bounds hwithin.left,
      Partitioner.Position.isWritable_of_bounds hwithin.right⟩
  · intro size job ranges tasks hleft hright hranges h
    exact restrict_readsAs h hranges ⟨hleft, hright⟩

/-- The whole ring, cut from one bound to another over its end. -/
theorem tokens_read_back_around :
    Token.ofText .murmur3 " +0_7" = .ok (.position (7 : ℤ)) ∧
      (∃ c, Token.write (p := .murmur3) (.position (7 : ℤ)) = .ok (.str c) ∧
        Token.normalize .murmur3 c = .ok (.str c)) ∧
      (∃ splits, assemble .murmur3 .ok oneReplica [aroundPart] [] = (splits, .ok ()) ∧
        MadeOf (SubSplit.pieces .murmur3) Split.ReadsAs [aroundPart] splits) ∧
      ∃ tasks, restrict (p := .murmur3) (.int 64) (some (TokenArc.between 90 10)) [oneReplica] =
          .ok tasks ∧
        MadeOf (TokenRange.common (TokenArc.between 90 10)) Task.ReadsAs [oneReplica] tasks := by
  obtain ⟨htexts, -, hwritable, -, hsplits, -, htasks⟩ := tokens_read_back .murmur3
  have hread : Token.ofText .murmur3 " +0_7" = .ok (.position (7 : ℤ)) := by rfl
  refine ⟨hread, ?_, ?_, ?_⟩
  · obtain ⟨c, hwrite, -, -, hsame⟩ := htexts _ _ hread
    exact ⟨c, hwrite, hsame⟩
  · have hpart : ∀ part ∈ [aroundPart], ReadsWritable .murmur3 part.startToken ∧
        ReadsWritable .murmur3 part.endToken :=
      List.forall_mem_singleton.2 ⟨hwritable "10", hwritable "5"⟩
    obtain ⟨splits, hassemble⟩ : ∃ splits,
        assemble .murmur3 .ok oneReplica [aroundPart] [] = (splits, .ok ()) := ⟨_, by rfl⟩
    obtain ⟨done, made, -, hdone, hmade, hreads⟩ := hsplits _ _ _ _ _ _ hpart hassemble
    obtain rfl := hdone rfl
    obtain rfl : splits = made := hmade
    exact ⟨splits, hassemble, hreads⟩
  · have hrange : ∀ r ∈ [oneReplica], ReadsWritable .murmur3 r.startToken ∧
        ReadsWritable .murmur3 r.endToken :=
      List.forall_mem_singleton.2 ⟨hwritable "0", hwritable "0"⟩
    have hleft : (TokenArc.between 90 10).left.isWritable = true := by decide +kernel
    have hright : (TokenArc.between 90 10).right.isWritable = true := by decide +kernel
    obtain ⟨tasks, hrestrict⟩ : ∃ tasks, restrict (p := .murmur3) (.int 64)
        (some (TokenArc.between 90 10)) [oneReplica] = .ok tasks := ⟨_, by rfl⟩
    exact ⟨tasks, hrestrict, htasks _ _ _ _ hleft hright hrange hrestrict⟩

/-- Signs, blanks, underscores and capitals are not written. -/
example : Token.normalize .murmur3 " +0_7" = .ok (.str "7") ∧
    Token.normalize .byteOrdered "0A ff" = .ok (.str "0aff") := by
  decide +kernel

end Plan

end RingScan
