import RingScan.Proofs.Plan.Seeds

set_option autoImplicit false

/-! # The connections of a pass

A pass opens connections to seeds until the handshake with one of them gets an answer, and for every
attempt at a task connections to its replicas until one of them answers. Replicas are gone through
by induction, and the attempts of a collection by induction on its budget. What a pass exchanges is
therefore made of connections that obey the protocol (`connections_obey`). -/

namespace RingScan.Plan

open Dialogue (Entry Yields)
open Http (Authorization)

/-! ## Attempts -/

section Attempts

variable {c : Context} {t : Task} {host : Value}

/-- Asking a host for the parts of a task is one connection. -/
theorem askHost_yields {es : List Entry} {result : Except PlanningError (List SubSplit)}
    (h : Yields (askHost c t host) es result) :
    ∃ xs, es = Connection.entries c ⟨⟨host, .parts t⟩, xs⟩ ∧
      Connection.Obeys c ⟨⟨host, .parts t⟩, xs⟩ ∧
      (IsLost xs ↔ ∃ e, result = .error e ∧ e.IsUnavailable) := by
  have hask : askHost c t host = .note (.connecting (c.addressOf host))
      (((handshake c host).mapError .ofNode).bind fun n => describeParts c n t) := rfl
  rw [hask] at h
  obtain ⟨rest, rfl, hrest⟩ := Dialogue.yields_note.1 h
  have htalks : Finishes c ⟨host, .parts t⟩ (.first c)
      (((handshake c host).mapError .ofNode).bind fun n => describeParts c n t) := by
    refine ((handshake_talks c ⟨host, .parts t⟩).mapError
      PlanningError.isUnavailable_ofNode).bind ?_
    rintro n q ⟨a, rfl, hn⟩
    exact describeParts_finishes hn rfl
  cases htalks _ _ hrest with
  | @ok xs _ _ path hup hquiet =>
    exact ⟨xs, rfl, Connection.obeys_of_path path hquiet, by simpa using hup⟩
  | @error xs _ _ path hquiet hdown =>
    exact ⟨xs, rfl, Connection.obeys_of_path path hquiet, by simpa using hdown.symm⟩

theorem askHosts_opens {asked hosts : List Value} {es : List Entry}
    {result : Except PlanningError (List SubSplit)}
    (h : Yields (askHosts c t asked hosts) es result) :
    ∃ ks, es = ks.flatMap (Connection.entries c) ∧ Opens c (.parts t) IsLost hosts ks := by
  induction hosts generalizing es with
  | nil =>
    obtain ⟨rfl, -⟩ := Dialogue.yields_fail.1 h
    exact ⟨[], rfl, .none⟩
  | cons host rest ih =>
    obtain ⟨es₁, first, es₂, h₁, h₂, rfl⟩ := Dialogue.yields_andThen.1 h
    obtain ⟨xs, rfl, hobeys, hlost⟩ := askHost_yields h₁
    by_cases hdown : ∃ e, first = .error e ∧ e.IsUnavailable
    · have hpassed := hlost.2 hdown
      obtain ⟨e, rfl, address, cause, rfl⟩ := hdown
      obtain ⟨ks, rfl, hks⟩ := ih h₂
      exact ⟨_ :: ks, by simp, .next hobeys hpassed hks⟩
    · -- no other host is asked
      have hend : es₂ = [] := by
        cases first with
        | ok parts => exact (Dialogue.yields_done.1 h₂).1
        | error e =>
          simp only [Except.error.injEq, exists_eq_left', PlanningError.IsUnavailable] at hdown
          split at h₂
          · next h => simp at h
          · next address cause h => exact absurd ⟨address, cause, Except.error.inj h⟩ hdown
          · exact (Dialogue.yields_fail.1 h₂).1
      subst hend
      exact ⟨[_], by simp, .stop hobeys (mt hlost.1 hdown)⟩

/-- **Replicas are asked in their order**, up to the first one that can be reached. -/
theorem attempt_opens {resolve : Resolver} {es : List Entry}
    {result : Except PlanningError (List Split)} (h : Yields (attempt c resolve t) es result) :
    ∃ ks, es = ks.flatMap (Connection.entries c) ∧ Opens c (.parts t) IsLost t.replicas ks := by
  have hparts : ∃ result, Yields (subSplits c t) es result := by
    rcases Dialogue.yields_bind.1 h with ⟨es₁, parts, es₂, h₁, h₂, rfl⟩ | ⟨e, h₁, -⟩
    · obtain ⟨rfl, -⟩ := Dialogue.yields_done.1 h₂
      exact ⟨_, by simpa using h₁⟩
    · exact ⟨_, h₁⟩
  obtain ⟨parts, hparts⟩ := hparts
  unfold subSplits at hparts
  unfold Task.replicas
  cases hhosts : t.range.effectiveEndpoints with
  | error f =>
    rw [hhosts] at hparts
    obtain ⟨rfl, -⟩ := Dialogue.yields_fail.1 hparts
    exact ⟨[], rfl, .none⟩
  | ok hosts =>
    rw [hhosts] at hparts
    exact askHosts_opens hparts

end Attempts

/-! ## Passes -/

section Passes

variable {σ : Type} {c : Context}

/-- Whatever is pending after an attempt at a task was pending before, or is that task again. -/
theorem mem_pending_settle {limit : ℕ} {left next : Collection} {task t : Task}
    {outcome : Except PlanningError (List Split)}
    (h : Collection.settle limit left task outcome = .ok next) (ht : t ∈ next.pending) :
    t ∈ left.pending ∨ t = task := by
  unfold Collection.settle at h
  split at h
  · obtain rfl := Except.ok.inj h
    exact .inl ht
  · split_ifs at h
    obtain rfl := Except.ok.inj h
    simpa using ht

/-- A collection is made of attempts at what is pending. -/
theorem drain_attempts {limit workers total : ℕ}
    {attempt : Task → Dialogue PlanningError (List Split)} {P : Task → List Connection → Prop}
    (hattempt : ∀ t es result, Yields (attempt t) es result →
      ∃ ks, es = ks.flatMap (Connection.entries c) ∧ P t ks)
    {d : Collection} {es : List Entry} {result : Except PlanningError (List Split)}
    (h : Yields (Collection.drain limit workers total attempt d) es result) :
    ∃ (attempts : List (Task × List Connection)) (report : PoolReport),
      es = (attempts.flatMap Prod.snd).flatMap (Connection.entries c) ++
        [.noted (.poolClosed report)] ∧
      ∀ y ∈ attempts, y.1 ∈ d.pending ∧ P y.1 y.2 := by
  induction hb : d.budget limit using Nat.strong_induction_on generalizing d es with
  | _ b ih =>
    rw [Collection.drain] at h
    split at h
    · obtain ⟨rest, rfl, hdone⟩ := Dialogue.yields_note.1 h
      obtain ⟨rfl, -⟩ := Dialogue.yields_done.1 hdone
      exact ⟨[], _, rfl, by simp⟩
    · next task rest hpending =>
      obtain ⟨es₁, first, es₂, h₁, h₂, rfl⟩ := Dialogue.yields_andThen.1 h
      obtain ⟨ks, rfl, hks⟩ := hattempt _ _ _ h₁
      dsimp only at h₂
      split at h₂
      · next later hsettle =>
        have hlt : later.budget limit < b := by
          have := Collection.budget_settle hsettle
          rw [← hb]
          simp only [Collection.budget, hpending, List.length_cons] at this ⊢
          omega
        obtain ⟨attempts, report, rfl, hattempts⟩ := ih _ hlt h₂ rfl
        refine ⟨(task, ks) :: attempts, report, by simp, ?_⟩
        refine List.forall_mem_cons.2 ⟨⟨by simp [hpending], hks⟩, fun y hy => ?_⟩
        obtain ⟨hmem, hP⟩ := hattempts y hy
        refine ⟨?_, hP⟩
        rw [hpending]
        rcases mem_pending_settle hsettle hmem with hleft | rfl
        · exact List.mem_cons_of_mem _ hleft
        · exact List.mem_cons_self
      · obtain ⟨rest, rfl, hfail⟩ := Dialogue.yields_note.1 h₂
        obtain ⟨rfl, -⟩ := Dialogue.yields_fail.1 hfail
        refine ⟨[(task, ks)], Collection.report workers total { d with pending := rest }, ?_, ?_⟩
        · simp [Collection.close]
        · simp [hpending, hks]

/-- The splits of tasks are collected by attempts at them. -/
theorem collect_attempts {resolve : Resolver} {ranges : ℕ} {tasks : List Task} {es : List Entry}
    {result : Except PlanningError (List Split)}
    (h : Yields (collect c resolve ranges tasks) es result) :
    ∃ (attempts : List (Task × List Connection)) (report : PoolReport),
      es = (attempts.flatMap Prod.snd).flatMap (Connection.entries c) ++
        [.noted (.poolClosed report)] ∧
      ∀ y ∈ attempts, y.1 ∈ tasks ∧ Opens c (.parts y.1) IsLost y.1.replicas y.2 := by
  have hdrain : ∃ result, Yields (Collection.run c.maxRetries (workersFor c tasks.length)
      (attempt c resolve) tasks) es result := by
    rcases Dialogue.yields_bind.1 h with ⟨es₁, splits, es₂, h₁, h₂, rfl⟩ | ⟨e, h₁, -⟩
    · have hnil : es₂ = [] := by
        split_ifs at h₂
        · exact (Dialogue.yields_fail.1 h₂).1
        · exact (Dialogue.yields_done.1 h₂).1
      exact ⟨_, by simpa [hnil] using h₁⟩
    · exact ⟨_, h₁⟩
  obtain ⟨result, hdrain⟩ := hdrain
  exact drain_attempts (fun t es result => attempt_opens) hdrain

/-- **Connection protocol.** A pass is made of connections, and all that happens besides is that
    the pool of workers is closed. Seeds are connected to in their order, up to the first one whose
    handshake does not fail for want of a connection; a pass with a restriction that cannot be used
    connects to none. Every attempt is one at a task of the pass, and connects to the replicas of
    its task in their order, up to the first one that can be reached. Every connection obeys the
    protocol. Attempts do so on their own, whatever they are answered, and hence also if several of
    them are made at a time. -/
theorem connections_obey (c : Context) (resolve : Resolver) (net : Dialogue.Network σ) (x : σ) :
    ((plan c resolve).transcript net x).map Entry.event = ((plan c resolve).run net x).events ∧
      (∃ (seeds : List Connection) (attempts : List (Task × List Connection))
          (reports : List PoolReport),
        (plan c resolve).transcript net x =
          (seeds ++ attempts.flatMap Prod.snd).flatMap (Connection.entries c) ++
            reports.map (fun r => .noted (.poolClosed r)) ∧
        Opens c .ring (IsLostInHandshake c)
          (if (jobArc c.partitioner c.keyRestriction?).isOk then c.seeds.map .str else []) seeds ∧
        ∀ y ∈ attempts, y.1 ∈ passTasks c net x ∧
          Opens c (.parts y.1) IsLost y.1.replicas y.2) ∧
      ∀ t es result, Yields (attempt c resolve t) es result →
        ∃ ks, es = ks.flatMap (Connection.entries c) ∧
          Opens c (.parts t) IsLost t.replicas ks := by
  refine ⟨Dialogue.map_event_transcript net _ x, ?_, fun t es result => attempt_opens⟩
  unfold plan
  cases hjob : jobArc c.partitioner c.keyRestriction? with
  | error e => exact ⟨[], [], [], rfl, .none, by simp⟩
  | ok job? =>
    obtain ⟨seeds, hseeds, hopens⟩ := seeds_open (Dialogue.yields_transcript net (describeRing c) x)
    dsimp only
    rw [Dialogue.bind, Dialogue.transcript_andThen, hseeds]
    cases hring : ((describeRing c).run net x).result with
    | error e => exact ⟨seeds, [], [], by simp [Dialogue.transcript], hopens, by simp⟩
    | ok ranges =>
      dsimp only
      cases htasks : restrict (.int c.splitSize) job? ranges with
      | error f =>
        exact ⟨seeds, [], [], by simp [Dialogue.transcript, Dialogue.fail], hopens, by simp⟩
      | ok tasks =>
        have hpass : passTasks c net x = tasks := by
          simp [passTasks, job, ringRanges, hjob, hring, htasks, Except.toOption]
        obtain ⟨attempts, report, hes, hattempts⟩ := collect_attempts
          (Dialogue.yields_transcript net (collect c resolve ranges.length tasks)
            ((describeRing c).run net x).state)
        refine ⟨seeds, attempts, [report], ?_, hopens, by rwa [hpass]⟩
        simp [hes]

/-- A pass with a user, over a ring of one range: a token that a login gave is used on its own
    connection only. -/
example :
    (Dialogue.requests ((plan { oneSeed with username? := some "u" } .ok).run replaying
      ("\x7b\"token\":\"s\"\x7d" :: allAround.take 2 ++
        "\x7b\"token\":\"t\"\x7d" :: allAround.drop 2)).events).map
        (fun r => (r.method, authorizationOf r)) =
      [(.post, none), (.get, some (.str "Bearer s")), (.get, some (.str "Bearer s")),
        (.post, none), (.get, some (.str "Bearer t")), (.post, some (.str "Bearer t"))] := by
  decide +kernel

end Passes

end RingScan.Plan
