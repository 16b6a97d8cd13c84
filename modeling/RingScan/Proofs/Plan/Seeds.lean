import RingScan.Proofs.Plan.Coverage
import RingScan.Proofs.Plan.Handshakes

set_option autoImplicit false

/-! # Asking seeds for the ring

The ring is asked of the first seed whose handshake gets an answer. Seeds are gone through by
induction: those whose handshake is lost are passed over, and the first other one settles what comes
of the ring, be it by its ranges, by a rejection, or by a request that is lost behind the handshake
(`SeedsTell`). The last of these is the odd one: a replica that is lost at the same place is passed
over, and a seed is not. A pass is therefore told that no seed can be reached in two cases
(`seed_failover`). -/

namespace RingScan.Plan

open Dialogue (Entry Yields)
open Http (Authorization)

variable {σ : Type} {c : Context} {l : Line} {a : Authorization} {n : Node}

/-- Whether a request of the handshake could not be delivered. -/
def IsLostInHandshake (c : Context) (es : List Exchange) : Prop :=
  IsLost (es.take c.handshakeLength)

/-! ## What a seed tells -/

/-- What the request for the ring ended with on the connection to a seed, if it was sent. -/
def Connection.ringEnding? (c : Context) (k : Connection) : Option (Except NodeError Wire.Record) :=
  k.exchanges[c.handshakeLength]?.map fun e =>
    (c.nodeAt k.host).ending e.request.url Wire.ringResponse e.outcome

/-- What comes of the ring by how the request for it ends: the ranges of the report, in its order,
    or the error of the request. -/
def toldRanges : Except NodeError Wire.Record → Except PlanningError (List TokenRange)
  | .ok r => readRanges ((Wire.entries r "ranges").map (·.map Wire.RingEntry.ofValue))
  | .error e => .error (.ofNode e)

/-- Whether asking for the ring comes to what a connection to a seed tells. Without a request for
    the ring this is an error of the handshake, and none of connecting. -/
def Connection.Tells (c : Context) (k : Connection)
    (result : Except PlanningError (List TokenRange)) : Prop :=
  match k.ringEnding? c with
  | some ending => result = toldRanges ending
  | none => ∃ e : NodeError, result = .error (.ofNode e) ∧ ¬ e.IsUnavailable

/-- Behind a handshake there is one request, and what it ends with is told. -/
theorem tellRing_yields (h : IsReady c l.host a n) (hl : l.purpose = .ring) {es : List Entry}
    {result : Except PlanningError (List TokenRange)} (hyields : Yields (tellRing c n) es result) :
    ∃ ending, Asked c l (.ready a) es ending ∧ result = toldRanges ending := by
  obtain ⟨es₁, first, es₂, h₁, h₂, rfl⟩ := Dialogue.yields_andThen.1 hyields
  obtain ⟨entries?, hcall, rfl⟩ := Dialogue.yields_mapError.1 h₁
  obtain ⟨ending, hasked, rfl⟩ := callRing_asks h.toIsAt hl _ _ hcall
  -- nothing is sent behind the call, however it ends
  refine ⟨ending, ?_⟩
  cases ending with
  | ok r =>
    obtain ⟨rfl, rfl⟩ := Dialogue.yields_done.1 h₂
    exact ⟨by simpa using hasked, rfl⟩
  | error e =>
    obtain ⟨rfl, rfl⟩ := Dialogue.yields_done.1 h₂
    exact ⟨by simpa using hasked, rfl⟩

/-- Behind a complete handshake, the connection tells what the request for the ring ends with. -/
theorem tells_of_asked {xs ys : List Exchange} {host : Value}
    {ending : Except NodeError Wire.Record} (hlength : xs.length = c.handshakeLength)
    (hasked : Asked c ⟨host, .ring⟩ (.ready a) (ys.map .exchanged) ending) :
    Connection.Tells c ⟨⟨host, .ring⟩, xs ++ ys⟩ (toldRanges ending) := by
  rw [Connection.Tells, Connection.ringEnding?, ← hlength]
  generalize hes : ys.map Entry.exchanged = es at hasked
  cases hasked with
  | sent hsent =>
    obtain ⟨e, rfl, he⟩ := List.map_eq_singleton_iff.1 hes
    obtain rfl := Entry.exchanged.inj he
    simp [Phase.ending, Phase.expects]
  | unsent hnone hup hknown =>
    obtain rfl := List.map_eq_nil_iff.1 hes
    simp only [List.append_nil, List.getElem?_length, Option.map_none]
    exact ⟨_, rfl, hup⟩

/-! ## One seed after the other -/

/-- What comes of the ring by the connections to seeds: the first seed that is not lost in the
    handshake tells it, and if there is none, no seed can be reached. -/
structure SeedsTell (c : Context) (ks : List Connection)
    (result : Except PlanningError (List TokenRange)) : Prop where
  tells : ∀ k ∈ ks, ¬ IsLostInHandshake c k.exchanges → k.Tells c result
  unavailable : (∀ k ∈ ks, IsLostInHandshake c k.exchanges) →
    result = .error (.seedsUnavailable c.seeds)
  /-- Nothing is sent behind a handshake that is lost. -/
  quiet : ∀ k ∈ ks, IsLostInHandshake c k.exchanges → k.ringEnding? c = none

theorem SeedsTell.stop {k : Connection} {result : Except PlanningError (List TokenRange)}
    (hup : ¬ IsLostInHandshake c k.exchanges) (htells : k.Tells c result) :
    SeedsTell c [k] result where
  tells := List.forall_mem_singleton.2 fun _ => htells
  unavailable h := absurd (h k (List.mem_singleton_self k)) hup
  quiet := List.forall_mem_singleton.2 fun h => absurd h hup

theorem SeedsTell.next {k : Connection} {ks : List Connection}
    {result : Except PlanningError (List TokenRange)} (h : SeedsTell c ks result)
    (hdown : IsLostInHandshake c k.exchanges) (hquiet : k.ringEnding? c = none) :
    SeedsTell c (k :: ks) result where
  tells := List.forall_mem_cons.2 ⟨fun hup => absurd hdown hup, h.tells⟩
  unavailable hall := h.unavailable fun j hj => hall j (List.mem_cons_of_mem k hj)
  quiet := List.forall_mem_cons.2 ⟨fun _ => hquiet, h.quiet⟩

/-- Seeds are connected to in their order, up to the first one that is not lost in the handshake,
    and that one tells what comes of the ring. -/
theorem seeds_tell {seeds : List String} {es : List Entry}
    {result : Except PlanningError (List TokenRange)}
    (h : Yields ((connectToSeed c seeds).bind (tellRing c)) es result) :
    ∃ ks, es = ks.flatMap (Connection.entries c) ∧
      Opens c .ring (IsLostInHandshake c) (seeds.map .str) ks ∧ SeedsTell c ks result := by
  induction seeds generalizing es with
  | nil =>
    obtain ⟨rfl, rfl⟩ := Dialogue.yields_fail.1 h
    exact ⟨[], rfl, .none, by simp, fun _ => rfl, by simp⟩
  | cons seed rest ih =>
    rw [connectToSeed, Dialogue.bind, Dialogue.andThen_assoc] at h
    obtain ⟨es₁, first, es₂, h₁, h₂, rfl⟩ := Dialogue.yields_andThen.1 h
    rw [connect_eq] at h₁
    obtain ⟨es', rfl, hshake⟩ := Dialogue.yields_note.1 h₁
    have hlength := handshake_length_le (l := ⟨.str seed, .ring⟩) hshake
    cases handshake_talks c ⟨.str seed, .ring⟩ _ _ hshake with
    | @ok xs _ n path hup hready =>
      -- the handshake is complete, and what comes behind it does not count
      obtain ⟨a, rfl, hn⟩ := hready
      have hxs : xs.length = c.handshakeLength := by
        rw [← Phase.toGo_first, ← path.length_eq_toGo]
      obtain ⟨ys, q, rfl, path', hquiet⟩ := (tellRing_finishes hn rfl _ _ h₂).exists_path
      obtain ⟨ending, hasked, rfl⟩ := tellRing_yields hn rfl h₂
      have htake : (xs ++ ys).take c.handshakeLength = xs := List.take_left' hxs
      rw [← htake, ← IsLostInHandshake] at hup
      refine ⟨[⟨⟨.str seed, .ring⟩, xs ++ ys⟩], by simp [Connection.entries], .stop ?_ hup,
        .stop hup (tells_of_asked hxs hasked)⟩
      exact Connection.obeys_of_path (path.append path') hquiet
    | @error xs _ e path hquiet hdown =>
      have hxs : xs.length ≤ c.handshakeLength := by simpa using hlength
      have htake : xs.take c.handshakeLength = xs := List.take_of_length_le hxs
      have hobeys : Connection.Obeys c ⟨⟨.str seed, .ring⟩, xs⟩ :=
        Connection.obeys_of_path path hquiet
      have hunasked : Connection.ringEnding? c ⟨⟨.str seed, .ring⟩, xs⟩ = none := by
        rw [Connection.ringEnding?, List.getElem?_eq_none hxs, Option.map_none]
      rw [← htake, ← IsLostInHandshake] at hdown
      cases e with
      | unavailable address cause =>
        obtain ⟨ks, rfl, hks, htell⟩ := ih h₂
        have hpassed := hdown.1 ⟨address, cause, rfl⟩
        exact ⟨_ :: ks, by simp [Connection.entries], .next hobeys hpassed hks,
          htell.next hpassed hunasked⟩
      | _ =>
        obtain ⟨rfl, rfl⟩ := Dialogue.yields_fail.1 h₂
        have hup := mt hdown.2 (by simp [NodeError.IsUnavailable])
        refine ⟨[_], by simp [Connection.entries], .stop hobeys hup, .stop hup ?_⟩
        rw [Connection.Tells, hunasked]
        exact ⟨_, rfl, by simp [NodeError.IsUnavailable]⟩

theorem seeds_open {seeds : List String} {es : List Entry}
    {result : Except PlanningError (List TokenRange)}
    (h : Yields ((connectToSeed c seeds).bind (tellRing c)) es result) :
    ∃ ks, es = ks.flatMap (Connection.entries c) ∧
      Opens c .ring (IsLostInHandshake c) (seeds.map .str) ks := by
  obtain ⟨ks, hes, hopens, -⟩ := seeds_tell h
  exact ⟨ks, hes, hopens⟩

/-! ## Failover -/

/-- Whether the request behind the handshake could not be delivered. -/
def IsLostBehindHandshake (c : Context) (es : List Exchange) : Prop :=
  ∃ e, es[c.handshakeLength]? = some e ∧ e.outcome.isUnreachable = true

/-- Whether something ends with the error that no node could be reached. -/
def EndsUnavailable {α : Type} (result : Except PlanningError α) : Prop :=
  ∃ e, result = .error e ∧ e.category? = some .unavailable

theorem endsUnavailable_ofNode (e : NodeError) {α : Type} :
    EndsUnavailable (.error (.ofNode e) : Except PlanningError α) ↔ e.IsUnavailable := by
  cases e <;>
    simp [EndsUnavailable, PlanningError.ofNode, PlanningError.category?, NodeError.IsUnavailable]

/-- A report that makes no sense says nothing of who can be reached. -/
theorem not_endsUnavailable_readRanges (entries? : Option (List Wire.RingEntry)) :
    ¬ EndsUnavailable (readRanges entries?) := by
  rintro ⟨e, h, he⟩
  cases entries? with
  | none =>
    obtain rfl := Except.error.inj h
    simp [PlanningError.category?] at he
  | some entries =>
    rw [readRanges] at h
    cases hread : entries.mapM TokenRange.ofEntry with
    | ok ranges => simp [hread, Except.mapError] at h
    | error f =>
      obtain rfl : .fault f = e := by simpa [hread, Except.mapError] using h
      simp [PlanningError.category?] at he

/-- A seed that is not lost in the handshake tells that it cannot be reached just if the request for
    the ring could not be delivered. -/
theorem Connection.Tells.endsUnavailable_iff {k : Connection}
    {result : Except PlanningError (List TokenRange)} (h : k.Tells c result) :
    EndsUnavailable result ↔ IsLostBehindHandshake c k.exchanges := by
  rw [Connection.Tells, Connection.ringEnding?] at h
  rw [IsLostBehindHandshake]
  cases hring : k.exchanges[c.handshakeLength]? with
  | none =>
    rw [hring] at h
    obtain ⟨e, rfl, hup⟩ := h
    simp [endsUnavailable_ofNode, hup]
  | some e =>
    simp only [hring, Option.map_some] at h
    simp only [Option.some.injEq, exists_eq_left']
    rw [← Node.ending_unavailable_iff (c.nodeAt k.host) e.request.url Wire.ringResponse, h]
    cases (c.nodeAt k.host).ending e.request.url Wire.ringResponse e.outcome with
    | ok r => simpa [toldRanges] using not_endsUnavailable_readRanges _
    | error cause => simp [toldRanges, endsUnavailable_ofNode]

/-- The ranges of a report are those of its entries, in their order. -/
theorem readRanges_of_forall₂ {entries : List Wire.RingEntry} {ranges : List TokenRange}
    (h : List.Forall₂ (fun entry range => TokenRange.ofEntry entry = .ok range) entries ranges) :
    readRanges (some entries) = .ok ranges := by
  have hread : entries.mapM TokenRange.ofEntry = .ok ranges := by
    induction h with
    | nil => rfl
    | cons hentry _ ih =>
      rw [List.mapM_cons, hentry, ih]
      rfl
  rw [readRanges, hread, Except.mapError]

/-- **Seed failover.** Seeds are connected to in their order. Either all of them are lost in the
    handshake, and asking for the ring ends with the error that none can be reached; or there is a
    first seed that is not, and it decides: by the ranges of its report, in their order, or by the
    error of its handshake or of the request for the ring. No seed behind it is connected to, even
    if that request could not be delivered. Hence there are two ways to end with the error that no
    node can be reached. -/
theorem seed_failover (c : Context) (net : Dialogue.Network σ) (x : σ) :
    ∃ ks : List Connection, (describeRing c).transcript net x = ks.flatMap (Connection.entries c) ∧
      (∀ k ∈ ks, k.Obeys c ∧ k.purpose = .ring) ∧
      ((ks.map (·.host) = c.seeds.map .str ∧ (∀ k ∈ ks, IsLostInHandshake c k.exchanges) ∧
          ((describeRing c).run net x).result = .error (.seedsUnavailable c.seeds)) ∨
        ∃ before k after, ks = before ++ [k] ∧
          c.seeds.map .str = before.map (·.host) ++ k.host :: after ∧
          (∀ j ∈ before, IsLostInHandshake c j.exchanges) ∧
          ¬ IsLostInHandshake c k.exchanges ∧ k.Tells c ((describeRing c).run net x).result) ∧
      (∀ k ∈ ks, ∀ r entries ranges, k.ringEnding? c = some (.ok r) →
        Wire.entries r "ranges" = some entries →
        List.Forall₂ (fun entry range => TokenRange.ofEntry (.ofValue entry) = .ok range)
          entries ranges →
        ((describeRing c).run net x).result = .ok ranges) ∧
      (EndsUnavailable ((describeRing c).run net x).result ↔
        (∀ k ∈ ks, IsLostInHandshake c k.exchanges) ∨
          ∃ k ∈ ks, IsLostBehindHandshake c k.exchanges) := by
  obtain ⟨ks, hks, hopens, htell⟩ := seeds_tell (Dialogue.yields_transcript net (describeRing c) x)
  refine ⟨ks, hks, hopens.forall_obeys, ?_, ?_, ?_⟩
  · rcases hopens.split with ⟨hhosts, hall⟩ | ⟨before, k, after, rfl, hhosts, hall, hup⟩
    · exact .inl ⟨hhosts, hall, htell.unavailable hall⟩
    · exact .inr ⟨before, k, after, rfl, hhosts, hall, hup, htell.tells k (by simp) hup⟩
  · intro k hk r entries ranges hring hentries hranges
    have hup : ¬ IsLostInHandshake c k.exchanges := fun hdown => by
      simp [htell.quiet k hk hdown] at hring
    have htells := htell.tells k hk hup
    simp only [Connection.Tells, hring, toldRanges, hentries, Option.map_some] at htells
    rw [htells]
    exact readRanges_of_forall₂ (List.forall₂_map_left_iff.2 hranges)
  · by_cases hall : ∀ k ∈ ks, IsLostInHandshake c k.exchanges
    · rw [htell.unavailable hall]
      exact iff_of_true ⟨_, rfl, rfl⟩ (.inl hall)
    · rw [or_iff_right hall]
      constructor
      · intro hend
        obtain ⟨k, hk, hup⟩ := not_forall₂.1 hall
        exact ⟨k, hk, (htell.tells k hk hup).endsUnavailable_iff.1 hend⟩
      · rintro ⟨k, hk, hbehind⟩
        refine (htell.tells k hk fun hdown => ?_).endsUnavailable_iff.2 hbehind
        obtain ⟨e, he, -⟩ := hbehind
        simpa [Connection.ringEnding?, he] using htell.quiet k hk hdown

/-! ## A seed that is lost behind the handshake -/

/-- A network in which `a` selects the keyspace and cannot be reached any more when it is asked for
    the ring, while `b` answers everything. -/
def losingRing : Dialogue.Network Unit := fun _ request =>
  if request.url = "http://a:9160/v1/keyspaces/k/ring" then (.failure .connection, ())
  else if request.url = "http://b:9160/v1/keyspaces/k/ring" then
    (.reply ⟨200, "\x7b\"ranges\":[\x7b\"startToken\":\"0\",\"endToken\":\"0\"," ++
      "\"endpoints\":[\"b\"],\"rpcEndpoints\":[\"b\"]\x7d]\x7d", []⟩, ())
  else (.reply ⟨200, "\x7b\x7d", []⟩, ())

/-- The ring that seeds tell in that network, or the kind of the error. -/
def ringTold (seeds : List String) (h : seeds ≠ []) :
    Except (Option Category) (List TokenRange) :=
  ((describeRing { oneSeed with seeds := seeds, seeds_ne := h }).run losingRing ()).result.mapError
    PlanningError.category?

/-- The seed `b` tells the ring if it is asked, and behind `a` it is not asked. -/
theorem lost_ring_not_passed_over :
    ringTold ["b"] (by decide) = .ok [⟨.str "0", .str "0", [.str "b"], [.str "b"]⟩] ∧
      ringTold ["a", "b"] (by decide) = .error (some .unavailable) := by
  decide +kernel

end RingScan.Plan
