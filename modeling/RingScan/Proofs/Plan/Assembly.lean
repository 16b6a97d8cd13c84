import RingScan.Proofs.Plan.Failover
import RingScan.Proofs.Plan.Reassembly
import RingScan.Proofs.Ring.TokenReading

set_option autoImplicit false

/-! # What assembling leaves behind

The splits of a range are put behind those that are there already. Whatever becomes of it, these
are kept as they are (`assemble_eq_iff`): nothing is added to them if the address lists of the range
do not match, or if a host of it has no name; the splits of all parts are added, part by part, if
all tokens are read; and otherwise the splits of just those parts that come before the first part
with a token that is not read. -/

namespace RingScan.Plan

variable {p : Partitioner} {resolve : Resolver} {r : TokenRange} {parts : List SubSplit}
  {locations : List Value}

/-! ## Parts between texts -/

/-- Whether a part lies between two texts, be they tokens or not. -/
def SubSplit.IsBetweenTexts (s : SubSplit) : Prop :=
  ∃ left right, s.startToken = .str left ∧ s.endToken = .str right

/-- Whether both tokens of a part are texts that are read as tokens. -/
def SubSplit.IsReadable (p : Partitioner) (s : SubSplit) : Prop :=
  IsTokenText p s.startToken ∧ IsTokenText p s.endToken

/-- Whether splits are the pieces that a part is cut into at the end of the ring, in order, all of
    the size of the part and at the same locations. -/
def SubSplit.HasSplits (p : Partitioner) (locations : List Value) (s : SubSplit)
    (splits : List Split) : Prop :=
  ∃ a : Arc p.Position, TokenArc.read p s.startToken s.endToken = .ok (.ofArc a) ∧
    splits = (a.unwrap p.ring).map fun b =>
      ⟨.str b.left.render, .str b.right.render, s.rowCount, locations⟩

theorem SubSplit.HasSplits.splits_eq {s : SubSplit} {splits : List Split}
    (h : s.HasSplits p locations splits) : s.splits p locations = .ok splits := by
  obtain ⟨a, ha, rfl⟩ := h
  exact SubSplit.splits_of_read locations ha

theorem SubSplit.splits_of_error {s : SubSplit} {f : Fault}
    (h : TokenArc.read p s.startToken s.endToken = .error f) (locations : List Value) :
    s.splits p locations = .error f := by
  simp only [SubSplit.splits, h, bind, Except.bind]

/-- A part between two texts has splits, or a token that is refused as invalid. -/
theorem SubSplit.IsBetweenTexts.read_or_refused {s : SubSplit} (h : s.IsBetweenTexts)
    (locations : List Value) :
    (∃ splits, s.HasSplits p locations splits) ∨ ¬ s.IsReadable p ∧
      ∃ message, TokenArc.read p s.startToken s.endToken = .error (.invalid message) := by
  by_cases hreadable : s.IsReadable p
  · obtain ⟨a, ha, -⟩ := exists_arc_of_isTokenText hreadable.1 hreadable.2
    exact .inl ⟨_, a, ha, rfl⟩
  · obtain ⟨left, right, hleft, hright⟩ := h
    refine .inr ⟨hreadable, ?_⟩
    rw [SubSplit.IsReadable, hleft, hright] at hreadable
    rw [hleft, hright, TokenArc.read, ← Token.ofText, ← Token.ofText]
    cases hl : Token.ofText p left with
    | error e =>
      obtain ⟨message, he⟩ := Token.exists_invalid_of_ofText hl
      exact ⟨message, congrArg Except.error he⟩
    | ok t =>
      cases hr : Token.ofText p right with
      | error e =>
        obtain ⟨message, he⟩ := Token.exists_invalid_of_ofText hr
        exact ⟨message, congrArg Except.error he⟩
      | ok u => exact absurd ⟨⟨_, t, rfl, hl⟩, ⟨_, u, rfl, hr⟩⟩ hreadable

/-- Of parts between texts, all have splits, or there is a first one that has none. -/
theorem exists_pieces_or_torn (hparts : ∀ s ∈ parts, s.IsBetweenTexts) (p : Partitioner)
    (locations : List Value) :
    (∃ pieces, List.Forall₂ (SubSplit.HasSplits p locations) parts pieces) ∨
      ∃ before s after pieces message, parts = before ++ s :: after ∧
        List.Forall₂ (SubSplit.HasSplits p locations) before pieces ∧ ¬ s.IsReadable p ∧
        TokenArc.read p s.startToken s.endToken = .error (.invalid message) := by
  induction parts with
  | nil => exact .inl ⟨[], .nil⟩
  | cons s rest ih =>
    obtain ⟨hs, hrest⟩ := List.forall_mem_cons.1 hparts
    rcases hs.read_or_refused (p := p) locations with ⟨splits, hsplits⟩ | ⟨hbad, message, hread⟩
    · rcases ih hrest with ⟨pieces, hpieces⟩ | ⟨before, t, after, pieces, message, rfl, hpieces, ht⟩
      · exact .inl ⟨_, .cons hsplits hpieces⟩
      · exact .inr ⟨s :: before, t, after, _, message, rfl, .cons hsplits hpieces, ht⟩
    · exact .inr ⟨[], s, rest, [], message, rfl, .nil, hbad, hread⟩

/-! ## The splits that are left -/

theorem appendSplits_torn {before after : List SubSplit} {s : SubSplit}
    {pieces : List (List Split)} {f : Fault}
    (h : List.Forall₂ (SubSplit.HasSplits p locations) before pieces)
    (hs : TokenArc.read p s.startToken s.endToken = .error f) (output : List Split) :
    appendSplits p locations output (before ++ s :: after) =
      (output ++ pieces.flatten, .error f) := by
  induction h generalizing output with
  | nil => simp [appendSplits, SubSplit.splits_of_error hs]
  | cons hpart _ ih =>
    rw [List.cons_append, appendSplits, hpart.splits_eq, List.flatten_cons, ← List.append_assoc]
    exact ih _

/-- What is added to the splits that are there already when a range is assembled, and how it ends. -/
inductive Assembles (p : Partitioner) (resolve : Resolver) (r : TokenRange)
    (parts : List SubSplit) : List Split → Except PlanningError Unit → Prop where
  /-- The address lists of the range do not match. -/
  | uneven : r.rpcEndpoints.length ≠ r.endpoints.length →
      Assembles p resolve r parts [] (.error (.unevenReplicas r))
  /-- A host of the range is not found: an address is no text, or a text has no name. -/
  | hostless {f : Fault} : r.rpcEndpoints.length = r.endpoints.length →
      r.hosts resolve = .error f →
        (¬ r.IsAddressed ∨ ∃ address f, resolve (.str address) = .error f) →
        Assembles p resolve r parts [] (.error (.fault f))
  /-- All parts have splits. -/
  | complete {locations : List Value} {pieces : List (List Split)} :
      r.rpcEndpoints.length = r.endpoints.length → r.hosts resolve = .ok locations →
        List.Forall₂ (SubSplit.HasSplits p locations) parts pieces →
        Assembles p resolve r parts pieces.flatten (.ok ())
  /-- All parts up to one have splits, and a token of that one is not read. -/
  | torn {locations : List Value} {before after : List SubSplit} {s : SubSplit}
      {pieces : List (List Split)} {message : String} :
      r.rpcEndpoints.length = r.endpoints.length → r.hosts resolve = .ok locations →
        parts = before ++ s :: after →
        List.Forall₂ (SubSplit.HasSplits p locations) before pieces → ¬ s.IsReadable p →
        TokenArc.read p s.startToken s.endToken = .error (.invalid message) →
        Assembles p resolve r parts pieces.flatten (.error (.fault (.invalid message)))

theorem Assembles.assemble_eq {added : List Split} {result : Except PlanningError Unit}
    (h : Assembles p resolve r parts added result) (output : List Split) :
    assemble p resolve r parts output = (output ++ added, result) := by
  cases h with
  | uneven hne => rw [assemble, if_pos hne, List.append_nil]
  | hostless heven hhosts =>
    simp only [assemble, heven, ne_eq, not_true_eq_false, if_false, hhosts, List.append_nil]
  | complete heven hhosts hpieces =>
    exact assemble_of_forall₂ heven hhosts (hpieces.imp fun _ _ h => h.splits_eq) output
  | torn heven hhosts hparts hpieces _ hread =>
    subst hparts
    simp only [assemble, heven, ne_eq, not_true_eq_false, if_false, hhosts,
      appendSplits_torn hpieces hread]
    rfl

theorem exists_assembles (hparts : ∀ s ∈ parts, s.IsBetweenTexts) (p : Partitioner)
    (resolve : Resolver) (r : TokenRange) :
    ∃ added result, Assembles p resolve r parts added result := by
  by_cases heven : r.rpcEndpoints.length = r.endpoints.length
  · cases hhosts : r.hosts resolve with
    | error f =>
      refine ⟨_, _, .hostless heven hhosts ?_⟩
      by_contra hfound
      obtain ⟨haddressed, hnames⟩ := not_or.1 hfound
      have hnamed : ∀ address, ∃ name, resolve (.str address) = .ok name := fun address => by
        cases hname : resolve (.str address) with
        | error f => exact absurd ⟨address, f, hname⟩ hnames
        | ok name => exact ⟨name, rfl⟩
      obtain ⟨locations, hlocations⟩ := (not_not.1 haddressed).exists_hosts hnamed
      cases hhosts.symm.trans hlocations
    | ok locations =>
      rcases exists_pieces_or_torn hparts p locations with
        ⟨pieces, hpieces⟩ | ⟨before, s, after, pieces, message, hsplit, hpieces, hbad, hread⟩
      · exact ⟨_, _, .complete heven hhosts hpieces⟩
      · exact ⟨_, _, .torn heven hhosts hsplit hpieces hbad hread⟩
  · exact ⟨_, _, .uneven heven⟩

/-- **What assembling leaves behind.** The splits that are there already are kept, and what is
    behind them, with the way it ends, is told by `Assembles`. -/
theorem assemble_eq_iff (hparts : ∀ s ∈ parts, s.IsBetweenTexts) (p : Partitioner)
    (resolve : Resolver) (r : TokenRange) (output left : List Split)
    (result : Except PlanningError Unit) :
    assemble p resolve r parts output = (left, result) ↔
      ∃ added, left = output ++ added ∧ Assembles p resolve r parts added result := by
  constructor
  · intro h
    obtain ⟨added, result', hadded⟩ := exists_assembles hparts p resolve r
    obtain ⟨rfl, rfl⟩ := Prod.mk.inj ((hadded.assemble_eq output).symm.trans h)
    exact ⟨added, rfl, hadded⟩
  · rintro ⟨added, rfl, hadded⟩
    exact hadded.assemble_eq output

/-- A part with a right token that is no number. -/
def tornPart : SubSplit := ⟨.str "5", .str "x", .int 1⟩

/-- A split that is there already. -/
def keptSplit : Split := ⟨.str "5", .str "10", .int 9, [.str "b"]⟩

/-- The splits of the part that goes over the end of the ring. -/
def aroundSplits : List Split :=
  [⟨.str "10", .str "9223372036854775807", .int 3, [.str "a"]⟩,
    ⟨.str "-9223372036854775808", .str "5", .int 3, [.str "a"]⟩]

/-- The parts behind the one that fails add nothing, although they could be read. -/
theorem assemble_eq_iff_torn :
    (∀ s ∈ [aroundPart, tornPart, aroundPart], s.IsBetweenTexts) ∧
      assemble .murmur3 .ok oneReplica [aroundPart, tornPart, aroundPart] [keptSplit] =
        (keptSplit :: aroundSplits,
          .error (.fault (.invalid "Invalid integer token: 'x'"))) := by
  have htexts : ∀ s ∈ [aroundPart, tornPart, aroundPart], s.IsBetweenTexts := by
    simp [SubSplit.IsBetweenTexts, aroundPart, tornPart]
  have hbad : ¬ tornPart.IsReadable .murmur3 := by
    rintro ⟨-, s, t, hs, ht⟩
    obtain rfl := Value.str.inj hs
    cases ht
  have hpieces : List.Forall₂ (SubSplit.HasSplits .murmur3 [.str "a"]) [aroundPart]
      [aroundSplits] :=
    .cons ⟨TokenArc.between 10 5, rfl, rfl⟩ .nil
  have htorn : Assembles .murmur3 .ok oneReplica ([aroundPart] ++ tornPart :: [aroundPart])
      [aroundSplits].flatten (.error (.fault (.invalid "Invalid integer token: 'x'"))) :=
    .torn rfl rfl rfl hpieces hbad rfl
  exact ⟨htexts, (assemble_eq_iff htexts .murmur3 .ok oneReplica [keptSplit] _ _).2
    ⟨aroundSplits, rfl, htorn⟩⟩

end RingScan.Plan
