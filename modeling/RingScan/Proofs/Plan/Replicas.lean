import RingScan.Proofs.Plan.ConnectionProtocol
import RingScan.Proofs.Plan.Failover

set_option autoImplicit false

/-! # Asking replicas for parts

What a replica gives is settled by the last call on its connection: sized parts, parts between
tokens, or the error of the call that failed, be it one of the handshake or one about the parts
(`Gives`). The replicas of a task take turns. One that cannot be reached, at whatever call, is
passed over, and the first other one settles the result (`Turns`). Unlike a seed, a replica is
passed over for a request that is lost behind the handshake, too, so that the error for replicas
that cannot be reached comes out just if none of them can be (`replica_failover`). -/

namespace RingScan.Plan

open Dialogue (Entry Yields)
open Http (Authorization)

variable {σ : Type} {c : Context} {l : Line} {t : Task} {a : Authorization} {n : Node} {p q : Phase}

/-! ## What a replica gives -/

/-- The parts that a node sends with their sizes, in its order, if it sends any list of them. -/
def sizedOf (r : Wire.Record) : Except PlanningError (List SubSplit) :=
  match Wire.entries r "splits" with
  | some entries => .ok (entries.map (SubSplit.ofEntry ∘ Wire.SplitEntry.ofValue))
  | none => .error (.fault .mismatch)

/-- The parts between the tokens that a node sends. -/
def pairedOf (t : Task) (r : Wire.Record) : Except PlanningError (List SubSplit) :=
  (SubSplit.ofTokens (r.value "tokens") t.splitSize).mapError .fault

/-- What a replica gives by what is exchanged with it from a phase on. -/
inductive Gives (c : Context) (l : Line) (t : Task) (p : Phase) :
    List Exchange → Except PlanningError (List SubSplit) → Prop
  /-- The call for sized parts is answered. -/
  | sized {xs ys : List Exchange} {a : Authorization} {r : Wire.Record}
      (path : Path c l p xs (.ready a))
      (asked : Asked c l (.ready a) (ys.map .exchanged) (.ok r)) :
      Gives c l t p (xs ++ ys) (sizedOf r)
  /-- The replica does not know that call, and the one for the tokens between the parts is
      answered. -/
  | paired {xs ys : List Exchange} {a : Authorization} {r : Wire.Record}
      (path : Path c l p xs (.declined a))
      (asked : Asked c l (.declined a) (ys.map .exchanged) (.ok r)) :
      Gives c l t p (xs ++ ys) (pairedOf t r)
  /-- A call fails, and no other one is made for it. -/
  | failed {xs ys : List Exchange} {q : Phase} {e : NodeError} (path : Path c l p xs q)
      (asked : Asked c l q (ys.map .exchanged) (.error e)) (hclosed : q.next (.error e) = .closed) :
      Gives c l t p (xs ++ ys) (.error (.ofNode e))

theorem Gives.after {xs ys : List Exchange} {result : Except PlanningError (List SubSplit)}
    (h : Gives c l t q ys result) (before : Path c l p xs q) : Gives c l t p (xs ++ ys) result := by
  cases h with
  | sized path asked =>
    rw [← List.append_assoc]
    exact .sized (before.append path) asked
  | paired path asked =>
    rw [← List.append_assoc]
    exact .paired (before.append path) asked
  | failed path asked hclosed =>
    rw [← List.append_assoc]
    exact .failed (before.append path) asked hclosed

/-- A single replica never tells that all of them cannot be reached. -/
theorem Gives.ne_endpointsExhausted {xs : List Exchange} {addresses : List String}
    {result : Except PlanningError (List SubSplit)} (h : Gives c l t p xs result) :
    result ≠ .error (.endpointsExhausted addresses) := by
  cases h with
  | sized path asked =>
    unfold sizedOf
    split <;> simp
  | @paired _ _ _ r path asked =>
    unfold pairedOf
    cases SubSplit.ofTokens (r.value "tokens") t.splitSize <;> simp [Except.mapError]
  | @failed _ _ _ e path asked hclosed => cases e <;> simp [PlanningError.ofNode]

theorem Asked.exists_exchanges {es : List Entry} {ending : Except NodeError Wire.Record}
    (h : Asked c l p es ending) : ∃ ys : List Exchange, es = ys.map .exchanged := by
  cases h with
  | @sent e hsent => exact ⟨[e], rfl⟩
  | unsent hnone hup hknown => exact ⟨[], rfl⟩

/-- A call that fails is all that happens on the rest of a connection. -/
theorem Asks.failed {α : Type} {d : Dialogue NodeError α} {g : Wire.Record → α} {es : List Entry}
    {e : NodeError} (h : Asks c l p d g) (hyields : Yields d es (.error e))
    (hclosed : p.next (.error e) = .closed) :
    ∃ ys : List Exchange, es = ys.map .exchanged ∧ Gives c l t p ys (.error (.ofNode e)) := by
  obtain ⟨ending, hasked, hending⟩ := h _ _ hyields
  obtain ⟨ys, rfl⟩ := hasked.exists_exchanges
  cases ending with
  | ok r => simp [Except.map] at hending
  | error e' =>
    obtain rfl := Except.error.inj hending
    exact ⟨ys, rfl, .failed (.nil p) hasked hclosed⟩

/-- A handshake that fails does so with the error of one of its calls. -/
theorem handshake_gives {es : List Entry} {e : NodeError}
    (h : Yields (handshake c l.host) es (.error e)) :
    ∃ xs : List Exchange, es = xs.map .exchanged ∧
      Gives c l t (.first c) xs (.error (.ofNode e)) := by
  rcases Dialogue.yields_bind.1 h with ⟨es₁, n, es₂, h₁, h₂, rfl⟩ | ⟨e', h₁, he⟩
  · cases logIn_talks c l _ _ h₁ with
    | @ok xs _ _ path _ hfits =>
      obtain ⟨a, rfl, hn⟩ := hfits
      obtain ⟨ys, rfl, hgives⟩ := (selectKeyspace_asks hn).failed (t := t) h₂ rfl
      exact ⟨xs ++ ys, by simp, hgives.after path⟩
  · obtain rfl := Except.error.inj he
    unfold logIn at h₁
    cases hu : c.username? with
    | none =>
      rw [hu] at h₁
      cases h₁
    | some username =>
      rw [hu] at h₁
      have hfirst : Phase.first c = .opened := by simp [Phase.first, hu]
      rw [hfirst]
      exact (login_asks hu).failed h₁ rfl

theorem pairedParts_gives (h : IsReady c l.host a n) (hl : l.purpose = .parts t)
    {es : List Entry} {result : Except PlanningError (List SubSplit)}
    (hyields : Yields (pairedParts c n t) es result) :
    ∃ ys : List Exchange, es = ys.map .exchanged ∧ Gives c l t (.declined a) ys result := by
  rcases Dialogue.yields_bind.1 hyields with ⟨es₁, tokens, es₂, h₁, h₂, rfl⟩ | ⟨e, h₁, rfl⟩
  · obtain ⟨rfl, rfl⟩ := Dialogue.yields_done.1 h₂
    have hcall := Dialogue.yields_mapError_ok.1 h₁
    obtain ⟨ending, hasked, htokens⟩ := callTokens_asks h hl _ _ hcall
    obtain ⟨ys, rfl⟩ := hasked.exists_exchanges
    cases ending with
    | error e => cases htokens
    | ok r =>
      obtain rfl : tokens = r.value "tokens" := Except.ok.inj htokens
      exact ⟨ys, by simp, .paired (.nil _) hasked⟩
  · obtain ⟨e', hcall, rfl⟩ := Dialogue.yields_mapError_error.1 h₁
    exact (callTokens_asks h hl).failed hcall rfl

theorem describeParts_gives (h : IsReady c l.host a n) (hl : l.purpose = .parts t)
    {es : List Entry} {result : Except PlanningError (List SubSplit)}
    (hyields : Yields (describeParts c n t) es result) :
    ∃ ys : List Exchange, es = ys.map .exchanged ∧ Gives c l t (.ready a) ys result := by
  obtain ⟨es₁, first, es₂, h₁, h₂, rfl⟩ := Dialogue.yields_andThen.1 hyields
  obtain ⟨ending, hasked, rfl⟩ := (callSized_asks h hl).map _ _ _ h₁
  cases ending with
  | ok r =>
    obtain ⟨ys, rfl⟩ := hasked.exists_exchanges
    have hgives : Gives c l t (.ready a) ys (sizedOf r) := .sized (.nil _) hasked
    refine ⟨ys, ?_⟩
    simp only [Except.map, Function.comp_apply] at h₂
    unfold sizedOf at hgives
    cases hparts : Wire.entries r "splits" with
    | none =>
      rw [hparts] at h₂ hgives
      obtain ⟨rfl, rfl⟩ := Dialogue.yields_fail.1 h₂
      exact ⟨by simp, hgives⟩
    | some parts =>
      rw [hparts] at h₂ hgives
      obtain ⟨rfl, rfl⟩ := Dialogue.yields_done.1 h₂
      exact ⟨by simp, by simpa using hgives⟩
  | error e =>
    by_cases hunknown : e.IsUnsupported
    · obtain ⟨xs, rfl, path, -⟩ := hasked.declined hunknown
      obtain ⟨address, cause, rfl⟩ := hunknown
      obtain ⟨ys, rfl, hgives⟩ := pairedParts_gives h hl h₂
      exact ⟨xs ++ ys, by simp, hgives.after path⟩
    · obtain ⟨ys, rfl⟩ := hasked.exists_exchanges
      have hclosed : (Phase.ready a).next (.error e) = .closed :=
        Phase.next_ready_closed (by simpa using hunknown)
      have hfail : es₂ = [] ∧ result = .error (.ofNode e) := by
        cases e with
        | unsupported address cause => exact absurd ⟨address, cause, rfl⟩ hunknown
        | _ => exact Dialogue.yields_fail.1 h₂
      obtain ⟨rfl, rfl⟩ := hfail
      exact ⟨ys, by simp, .failed (.nil _) hasked hclosed⟩

/-- A replica gives the error of its handshake, or else what it says of the parts. -/
theorem handshake_describeParts_gives {host : Value} {es : List Entry}
    {result : Except PlanningError (List SubSplit)}
    (h : Yields (((handshake c host).mapError .ofNode).bind fun n => describeParts c n t) es
      result) :
    ∃ ys : List Exchange, es = ys.map .exchanged ∧
      Gives c ⟨host, .parts t⟩ t (.first c) ys result := by
  rcases Dialogue.yields_bind.1 h with ⟨es₁, n, es₂, h₁, h₂, rfl⟩ | ⟨e, h₁, rfl⟩
  · have hshake := Dialogue.yields_mapError_ok.1 h₁
    cases handshake_talks c ⟨host, .parts t⟩ _ _ hshake with
    | @ok xs _ _ path _ hfits =>
      obtain ⟨a, rfl, hready⟩ := hfits
      obtain ⟨ys, rfl, hgives⟩ := describeParts_gives hready rfl h₂
      exact ⟨xs ++ ys, by simp, hgives.after path⟩
  · obtain ⟨e', hshake, rfl⟩ := Dialogue.yields_mapError_error.1 h₁
    exact handshake_gives (l := ⟨host, .parts t⟩) hshake

/-! ## One replica after the other -/

/-- A connection to a replica, and what asking the replica for the parts of a task ended with. -/
structure Turn extends Connection where
  result : Except PlanningError (List SubSplit)

/-- Whether a turn ended with the error that the replica cannot be reached. -/
def Turn.IsUnavailable (turn : Turn) : Prop := ∃ e, turn.result = .error e ∧ e.IsUnavailable

/-- Whether a turn is one of a replica of a task: the connection obeys the protocol, asking the
    replica can go this way and then ends with this result, and the result is what the replica gives
    on the connection. The replica cannot be reached just if one of the requests could not be
    delivered. -/
structure Turn.Holds (c : Context) (t : Task) (turn : Turn) : Prop where
  purpose : turn.purpose = .parts t
  obeys : turn.toConnection.Obeys c
  yields : Yields (askHost c t turn.host) (turn.entries c) turn.result
  gives : Gives c turn.toLine t (.first c) turn.exchanges turn.result
  isLost_iff : IsLost turn.exchanges ↔ turn.IsUnavailable

theorem exists_turn {host : Value} {es : List Entry}
    {result : Except PlanningError (List SubSplit)} (h : Yields (askHost c t host) es result) :
    ∃ turn : Turn, es = turn.entries c ∧ turn.host = host ∧ turn.result = result ∧
      turn.Holds c t := by
  obtain ⟨xs, rfl, hobeys, hlost⟩ := askHost_yields h
  refine ⟨⟨⟨⟨host, .parts t⟩, xs⟩, result⟩, rfl, rfl, rfl, rfl, hobeys, h, ?_, hlost⟩
  obtain ⟨rest, hrest, hcalls⟩ := Dialogue.yields_note.1 h
  obtain rfl : xs.map .exchanged = rest := (List.cons.inj hrest).2
  obtain ⟨ys, hys, hgives⟩ := handshake_describeParts_gives hcalls
  obtain rfl : xs = ys := List.map_injective_iff.2 (fun e e' he => Entry.exchanged.inj he) hys
  exact hgives

/-- The turns of replicas in their order, up to the first one that can be reached, which settles the
    result. If none of them can be, there is an error for that. -/
inductive Turns (c : Context) (t : Task) (exhausted : PlanningError) :
    List Value → List Turn → Except PlanningError (List SubSplit) → Prop
  | none : Turns c t exhausted [] [] (.error exhausted)
  | stop {turn : Turn} {rest : List Value} (h : turn.Holds c t) (hup : ¬ turn.IsUnavailable) :
      Turns c t exhausted (turn.host :: rest) [turn] turn.result
  | next {turn : Turn} {rest : List Value} {turns : List Turn}
      {result : Except PlanningError (List SubSplit)} (h : turn.Holds c t)
      (hdown : turn.IsUnavailable) (hrest : Turns c t exhausted rest turns result) :
      Turns c t exhausted (turn.host :: rest) (turn :: turns) result

theorem askHosts_turns {asked hosts : List Value} {es : List Entry}
    {result : Except PlanningError (List SubSplit)}
    (h : Yields (askHosts c t asked hosts) es result) :
    ∃ turns : List Turn, es = turns.flatMap (fun turn => turn.entries c) ∧
      Turns c t (.ofAddresses asked) hosts turns result := by
  induction hosts generalizing es with
  | nil =>
    obtain ⟨rfl, rfl⟩ := Dialogue.yields_fail.1 h
    exact ⟨[], rfl, .none⟩
  | cons host rest ih =>
    obtain ⟨es₁, first, es₂, h₁, h₂, rfl⟩ := Dialogue.yields_andThen.1 h
    obtain ⟨turn, rfl, rfl, rfl, hturn⟩ := exists_turn h₁
    by_cases hdown : turn.IsUnavailable
    · have ⟨e, he, address, cause, hcause⟩ := hdown
      subst hcause
      rw [he] at h₂
      obtain ⟨turns, rfl, hturns⟩ := ih h₂
      exact ⟨turn :: turns, by simp, .next hturn hdown hturns⟩
    · -- the result is passed on, and no other replica is asked
      have hend : es₂ = [] ∧ result = turn.result := by
        have hup : ∀ address cause, turn.result ≠ .error (.node (.unavailable address cause)) := by
          intro address cause he
          exact hdown ⟨_, he, address, cause, rfl⟩
        split at h₂
        · next parts hparts => exact hparts ▸ Dialogue.yields_done.1 h₂
        · next address cause he => exact absurd he (hup address cause)
        · next e _ he => exact he ▸ Dialogue.yields_fail.1 h₂
      obtain ⟨rfl, rfl⟩ := hend
      exact ⟨[turn], by simp, .stop hturn hdown⟩

section Turns

variable {exhausted : PlanningError} {hosts : List Value} {turns : List Turn}
  {result : Except PlanningError (List SubSplit)}

theorem Turns.forall_holds (h : Turns c t exhausted hosts turns result) :
    ∀ turn ∈ turns, turn.Holds c t := by
  induction h with
  | none => simp
  | stop h hup => exact List.forall_mem_singleton.2 h
  | next h hdown hrest ih => exact List.forall_mem_cons.2 ⟨h, ih⟩

/-- Either no replica can be reached, or the first one that can be settles the result. -/
theorem Turns.split (h : Turns c t exhausted hosts turns result) :
    (turns.map (·.host) = hosts ∧ (∀ turn ∈ turns, turn.IsUnavailable) ∧
        result = .error exhausted) ∨
      ∃ before turn after, turns = before ++ [turn] ∧
        hosts = before.map (·.host) ++ turn.host :: after ∧
        (∀ other ∈ before, other.IsUnavailable) ∧ ¬ turn.IsUnavailable ∧
        result = turn.result := by
  induction h with
  | none => exact .inl ⟨rfl, by simp, rfl⟩
  | @stop turn rest h hup => exact .inr ⟨[], turn, rest, rfl, rfl, by simp, hup, rfl⟩
  | @next turn _ _ _ h hdown hrest ih =>
    rcases ih with ⟨rfl, hall, rfl⟩ | ⟨before, last, after, rfl, rfl, hall, hup, rfl⟩
    · exact .inl ⟨rfl, List.forall_mem_cons.2 ⟨hdown, hall⟩, rfl⟩
    · exact .inr ⟨turn :: before, last, after, rfl, rfl,
        List.forall_mem_cons.2 ⟨hdown, hall⟩, hup, rfl⟩

end Turns

/-! ## Failover -/

theorem ofAddresses_map_str (addresses : List String) :
    PlanningError.ofAddresses (addresses.map .str) = .endpointsExhausted addresses := by
  have htexts : PlanningError.texts? (addresses.map .str) = some addresses := by
    unfold PlanningError.texts?
    induction addresses with
    | nil => rfl
    | cons address rest ih => simp [ih]
  simp only [PlanningError.ofAddresses, htexts]

/-- **Replica failover.** Whatever the replicas of a task answer, asking for its parts is made of
    turns that they take in their order, each of them once at most. Either the replica of every turn
    cannot be reached, and then all replicas took theirs and the error names all of them, with those
    that are listed twice named twice; or this is so of all turns but the last one, whose result is
    the result. No other replica is connected to. So the error for replicas that cannot be reached
    comes out just if all of them took a turn and none can be reached. -/
theorem replica_failover (net : Dialogue.Network σ) (x : σ) {hosts : List String}
    (hhosts : t.range.effectiveEndpoints = .ok (hosts.map .str)) :
    ∃ turns : List Turn,
      (subSplits c t).transcript net x = turns.flatMap (fun turn => turn.entries c) ∧
      (∀ turn ∈ turns, turn.Holds c t) ∧
      ((turns.map (·.host) = hosts.map .str ∧ (∀ turn ∈ turns, turn.IsUnavailable) ∧
          ((subSplits c t).run net x).result = .error (.endpointsExhausted hosts)) ∨
        ∃ before turn after, turns = before ++ [turn] ∧
          hosts.map .str = before.map (·.host) ++ turn.host :: after ∧
          (∀ other ∈ before, other.IsUnavailable) ∧ ¬ turn.IsUnavailable ∧
          ((subSplits c t).run net x).result = turn.result) ∧
      ∀ addresses, ((subSplits c t).run net x).result = .error (.endpointsExhausted addresses) ↔
        addresses = hosts ∧ turns.map (·.host) = hosts.map .str ∧
          ∀ turn ∈ turns, turn.IsUnavailable := by
  have hyields := Dialogue.yields_transcript net (subSplits c t) x
  rw [subSplits, hhosts] at hyields ⊢
  obtain ⟨turns, hes, hturns⟩ := askHosts_turns hyields
  rw [ofAddresses_map_str] at hturns
  refine ⟨turns, hes, hturns.forall_holds, hturns.split, ?_⟩
  intro addresses
  rcases hturns.split with ⟨hall, hlost, hresult⟩ | ⟨before, turn, after, rfl, -, -, hup, hresult⟩
  · rw [hresult]
    constructor
    · rintro ⟨⟩
      exact ⟨rfl, hall, hlost⟩
    · rintro ⟨rfl, -, -⟩
      rfl
  · have hturn := hturns.forall_holds turn (by simp)
    rw [hresult]
    refine iff_of_false hturn.gives.ne_endpointsExhausted ?_
    rintro ⟨-, -, hlost⟩
    exact hup (hlost turn (by simp))

/-- Of three replicas, the first one cannot be reached, and the second one does not know the call
    for sized parts. -/
theorem replica_failover_mixed :
    aroundTask.range.effectiveEndpoints = .ok (["a", "b", "d"].map .str) ∧
      ∃ turns : List Turn,
        (subSplits twoSeeds aroundTask).transcript mixedNetwork () =
          turns.flatMap (fun turn => turn.entries twoSeeds) ∧
        ∀ turn ∈ turns, turn.Holds twoSeeds aroundTask := by
  have hhosts : aroundTask.range.effectiveEndpoints = .ok (["a", "b", "d"].map .str) := rfl
  obtain ⟨turns, hturns, hholds, -⟩ := replica_failover (c := twoSeeds) mixedNetwork () hhosts
  exact ⟨hhosts, turns, hturns, hholds⟩

/-- The second replica tells the tokens between the parts, and the third one is not asked. -/
example :
    ((subSplits twoSeeds aroundTask).run mixedNetwork ()).result.toOption =
        some [⟨.str "0", .str "5", .int 64⟩, ⟨.str "5", .str "0", .int 64⟩] ∧
      (Dialogue.requests ((subSplits twoSeeds aroundTask).run mixedNetwork ()).events).map (·.url) =
        ["http://a:9160/v1/keyspaces/k", "http://b:9160/v1/keyspaces/k",
          "http://b:9160/v1/keyspaces/k/tables/t/splits",
          "http://b:9160/v1/keyspaces/k/tables/t/split-tokens"] := by
  decide +kernel

end RingScan.Plan
