import RingScan.Plan.Planner
import RingScan.Proofs.Node.Calls

set_option autoImplicit false

/-! # Clusters whose nodes behave in fixed ways

Every node of a cluster behaves in one way for all of a pass: it cannot be reached, or it answers
all calls, or it answers all but the one for sized parts, which it does not know. The nodes that
answer agree on the ring and on the tokens between the parts of every task. Then the first seed that
can be reached tells the ring (`describeRing_cluster`), and the first replica of a task that can be
reached tells the parts between these tokens (`subSplits_cluster`). -/

namespace RingScan.Plan

open Node (IsSendable)

variable {σ : Type} {c : Context} {net : Dialogue.Network σ} {x : σ} {host : Value} {n : Node}
  {t : Task}

/-! ## Handshakes -/

/-- The address of a host. -/
def Context.addressOf (c : Context) (host : Value) : String :=
  Node.addressOf host (.int c.rpcPort)

/-- The node of a host before the handshake. -/
def Context.nodeAt (c : Context) (host : Value) : Node :=
  Node.atAddress (c.addressOf host) c.connectTimeout c.requestTimeout

/-- Whether a handshake can be sent: the keyspace has a name, and the login a text. -/
structure Context.CanConnect (c : Context) : Prop where
  keyspace : ∃ name, Node.Name.ofValue (.str c.keyspace) = .ok name
  login : ∀ username ∈ c.username?,
    IsSendable (Wire.loginBody (.str username) (.str (c.password?.getD "")))

/-- A node after a handshake with a host. -/
structure Connected (c : Context) (host : Value) (n : Node) : Prop where
  address : n.address = c.addressOf host
  client : n.client = (c.nodeAt host).client
  keyspace : ∃ name, Node.Name.ofValue (.str c.keyspace) = .ok name ∧ n.keyspace? = some name

theorem result_connect : ((connect c host).run net x).result =
    (((logIn c (c.nodeAt host)).bind fun n =>
      Node.withName (.str c.keyspace) n.selectKeyspace).run net x).result := rfl

theorem logIn_ok {m : Node} (h : ((logIn c m).run net x).result = .ok n) :
    n.address = m.address ∧ n.client = m.client ∧ ∀ username ∈ c.username?,
      IsSendable (Wire.loginBody (.str username) (.str (c.password?.getD ""))) := by
  unfold logIn at h
  cases hu : c.username? with
  | none =>
    simp only [hu] at h
    obtain rfl : m = n := Except.ok.inj h
    exact ⟨rfl, rfl, by simp⟩
  | some username =>
    simp only [hu, Node.login, Dialogue.result_bind] at h
    split at h
    · next r hr =>
      have hsend := Node.isSendable_of_ok hr
      obtain rfl := Except.ok.inj h
      exact ⟨rfl, rfl, by simpa using hsend⟩
    · simp at h

theorem connect_ok (h : ((connect c host).run net x).result = .ok n) :
    c.CanConnect ∧ Connected c host n := by
  rw [result_connect, Dialogue.result_bind] at h
  split at h
  · next m hm =>
    obtain ⟨haddress, hclient, hlogin⟩ := logIn_ok hm
    obtain ⟨name, hname, hselect⟩ := Node.withName_ok h
    simp only [Node.selectKeyspace, Dialogue.result_bind] at hselect
    split at hselect
    · obtain rfl := Except.ok.inj hselect
      exact ⟨⟨⟨name, hname⟩, hlogin⟩, haddress, hclient, name, hname, rfl⟩
    · simp at hselect
  · simp at h

/-- A handshake with a server that cannot be reached. -/
theorem connect_unreachable (hc : c.CanConnect)
    (h : net.Unreachable (c.nodeAt host).client.server) :
    ∃ address e, ((connect c host).run net x).result = .error (.unavailable address e) := by
  obtain ⟨⟨name, hname⟩, hlogin⟩ := hc
  rw [result_connect, Dialogue.result_bind]
  unfold logIn
  cases hu : c.username? with
  | none =>
    obtain ⟨e, he⟩ := Node.get_unreachable (x := x) h (Node.paths.keyspace name)
      Wire.keyspaceResponse
    refine ⟨(c.nodeAt host).address, e, ?_⟩
    simp only [pure, Dialogue.run, Node.withName_eq hname, Node.selectKeyspace,
      Dialogue.result_bind, he]
  | some username =>
    obtain ⟨e, he⟩ := Node.post_unreachable (x := x) h Node.paths.login Wire.loginResponse
      (hlogin username hu)
    refine ⟨(c.nodeAt host).address, e, ?_⟩
    simp only [Node.login, Dialogue.result_bind, he]

/-! ## Behaviours -/

/-- How a node behaves. -/
inductive Behaviour where
  /-- No connection to it is made. -/
  | unreachable
  /-- It answers all calls. -/
  | modern
  /-- It does not know the call for sized parts, and answers all others. -/
  | legacy
  deriving DecidableEq

/-- What the nodes of a cluster agree on: the ring, and the tokens that the parts of every task lie
    between. -/
structure Cluster where
  ring : List TokenRange
  chain : Task → List Value

/-- The addresses of the replicas of a task. -/
def Task.replicas (t : Task) : List Value := t.range.effectiveEndpoints.toOption.getD []

/-- The call for the ring. -/
def callRing (c : Context) (n : Node) : Dialogue NodeError (Option (List Wire.RingEntry)) :=
  Node.withName (.str c.keyspace) n.describeRing

/-- The call for the sized parts of a task. -/
def callSized (c : Context) (n : Node) (t : Task) :
    Dialogue NodeError (Option (List Wire.SplitEntry)) :=
  Node.withName (.str c.table) fun table =>
    n.describeSizedSplits table t.range.startToken t.range.endToken t.splitSize

/-- The call for the tokens between the parts of a task. -/
def callTokens (c : Context) (n : Node) (t : Task) : Dialogue NodeError Value :=
  Node.withName (.str c.table) fun table =>
    n.describeSplitTokens table t.range.startToken t.range.endToken t.splitSize

/-- Whether a request is the call of a host for sized parts. -/
def IsSizedCall (c : Context) (host : Value) (request : Request) : Prop :=
  ∃ keyspace table, Node.Name.ofValue (.str c.keyspace) = .ok keyspace ∧
    Node.Name.ofValue (.str c.table) = .ok table ∧
    request.url = Http.locate (c.nodeAt host).client.server (Node.paths.splits keyspace table) []

/-- Whether a network lets the seeds and the replicas of tasks behave in these ways, by their
    addresses. What is said of a call holds whenever it is made after a handshake. -/
structure Cluster.Runs (k : Cluster) (c : Context) (tasks : List Task)
    (behaviour : String → Behaviour) (net : Dialogue.Network σ) : Prop where
  unreachable : ∀ host, behaviour (c.addressOf host) = .unreachable →
    net.Unreachable (c.nodeAt host).client.server
  seeds : ∀ seed ∈ c.seeds, behaviour (c.addressOf (.str seed)) ≠ .unreachable →
    (∀ x, ∃ n, ((connect c (.str seed)).run net x).result = .ok n) ∧
      ∀ x n, ((connect c (.str seed)).run net x).result = .ok n →
        ∀ y, ∃ entries, ((callRing c n).run net y).result = .ok (some entries) ∧
          entries.mapM TokenRange.ofEntry = .ok k.ring
  replicas : ∀ t ∈ tasks, ∀ host ∈ t.replicas, behaviour (c.addressOf host) ≠ .unreachable →
    ∀ x, ∃ n, ((connect c host).run net x).result = .ok n
  modern : ∀ t ∈ tasks, ∀ host ∈ t.replicas, behaviour (c.addressOf host) = .modern →
    ∀ x n, ((connect c host).run net x).result = .ok n →
      ∀ y, ∃ entries, ((callSized c n t).run net y).result = .ok (some entries) ∧
        entries.map (fun e => (e.startToken, e.endToken)) = (k.chain t).zip (k.chain t).tail
  legacy : ∀ t ∈ tasks, ∀ host ∈ t.replicas, behaviour (c.addressOf host) = .legacy →
    (∀ y request, IsSizedCall c host request → (net y request).1.IsUnknownCall) ∧
      ∀ x n, ((connect c host).run net x).result = .ok n →
        ∀ y, ((callTokens c n t).run net y).result = .ok (.arr (k.chain t))

/-! ## Asking nodes -/

theorem sizedParts_eq (c : Context) (n : Node) (t : Task) :
    sizedParts c n t =
      (callSized c n t).bind fun entries? => pure (entries?.map (·.map SubSplit.ofEntry)) := rfl

theorem pairedParts_eq (c : Context) (n : Node) (t : Task) :
    pairedParts c n t = ((callTokens c n t).mapError .ofNode).bind fun tokens =>
      .done ((SubSplit.ofTokens tokens t.splitSize).mapError .fault) := rfl

/-- The bounds of a part. -/
def SubSplit.bounds (s : SubSplit) : Value × Value := (s.startToken, s.endToken)

theorem map_bounds_between (size : Value) (tokens : List Value) :
    (SubSplit.between size tokens).map SubSplit.bounds = tokens.zip tokens.tail := by
  fun_induction SubSplit.between size tokens with
  | case1 start stop rest ih => simpa [SubSplit.bounds] using ih
  | case2 tokens h =>
    match tokens with
    | [] => rfl
    | [token] => rfl
    | start :: stop :: rest => exact absurd rfl (h start stop rest)

/-- A modern node tells the parts with their sizes. -/
theorem describeParts_modern {entries : List Wire.SplitEntry}
    (h : ((callSized c n t).run net x).result = .ok (some entries)) :
    ((describeParts c n t).run net x).result = .ok (entries.map SubSplit.ofEntry) := by
  have hsized : ((sizedParts c n t).run net x).result =
      .ok (some (entries.map SubSplit.ofEntry)) := by
    rw [sizedParts_eq, Dialogue.result_bind, h]
    rfl
  rw [describeParts, Dialogue.run_andThen]
  simp only [hsized]
  rfl

/-- A legacy node tells the tokens between the parts, after it was asked for sized parts in vain. -/
theorem describeParts_legacy {tokens : List Value} (hn : Connected c host n)
    (hsized : ∀ y request, IsSizedCall c host request → (net y request).1.IsUnknownCall)
    (htokens : ∀ y, ((callTokens c n t).run net y).result = .ok (.arr tokens)) :
    ((describeParts c n t).run net x).result = .ok (SubSplit.between t.splitSize tokens) := by
  obtain ⟨keyspace, hkeyspace, hselected⟩ := hn.keyspace
  obtain ⟨table, htable, hcall⟩ := Node.withName_ok (htokens x)
  -- both calls send the same message, and the second one is answered
  have hsend : IsSendable (Wire.splitsBody t.range.startToken t.range.endToken t.splitSize) := by
    simp only [Node.describeSplitTokens, Node.withKeyspace, hselected, Dialogue.result_bind] at hcall
    split at hcall
    · next r hr => exact Node.isSendable_of_ok hr
    · simp at hcall
  have hunknown : ∃ e, ((sizedParts c n t).run net x).result =
      .error (.unsupported n.address e) := by
    have hcalls : ∀ request : Request,
        request.url = Http.locate n.client.server (Node.paths.splits keyspace table) [] →
        (net x request).1.IsUnknownCall := fun request hurl =>
      hsized x request ⟨keyspace, table, hkeyspace, htable, by rw [hurl, hn.client]⟩
    obtain ⟨e, he⟩ := Node.post_unknownCall (Node.paths.splits keyspace table) Wire.splitsResponse
      hsend hcalls
    refine ⟨e, ?_⟩
    simp only [sizedParts, Node.withName_eq htable, Node.describeSizedSplits, Node.withKeyspace,
      hselected, Dialogue.result_bind, he]
  obtain ⟨e, he⟩ := hunknown
  rw [describeParts, Dialogue.run_andThen]
  simp only [he, pairedParts_eq, Dialogue.result_bind, Dialogue.result_mapError, htokens]
  rfl

/-! ## Asking a cluster -/

section Runs

variable {k : Cluster} {tasks : List Task} {behaviour : String → Behaviour}

/-- Whether a host can be reached. -/
def IsUp (c : Context) (behaviour : String → Behaviour) (host : Value) : Prop :=
  behaviour (c.addressOf host) ≠ .unreachable

/-- Once some seed can be reached, handshakes can be sent. -/
theorem Cluster.Runs.canConnect (h : k.Runs c tasks behaviour net) {seed : String}
    (hseed : seed ∈ c.seeds) (hup : IsUp c behaviour (.str seed)) (x : σ) : c.CanConnect := by
  obtain ⟨n, hn⟩ := (h.seeds seed hseed hup).1 x
  exact (connect_ok hn).1

/-- The first seed that can be reached is connected to. -/
theorem connectToSeed_cluster (h : k.Runs c tasks behaviour net) (hc : c.CanConnect)
    {seeds : List String} (hsub : ∀ seed ∈ seeds, seed ∈ c.seeds)
    (hup : ∃ seed ∈ seeds, IsUp c behaviour (.str seed)) :
    ∃ seed ∈ c.seeds, IsUp c behaviour (.str seed) ∧ ∃ y n,
      ((connect c (.str seed)).run net y).result = .ok n ∧
      ((connectToSeed c seeds).run net x).result = .ok n := by
  induction seeds generalizing x with
  | nil => simp at hup
  | cons seed rest ih =>
    obtain ⟨hseed, hrest⟩ := List.forall_mem_cons.1 hsub
    rw [connectToSeed, Dialogue.run_andThen]
    by_cases hdown : behaviour (c.addressOf (.str seed)) = .unreachable
    · -- the search goes on behind a seed that is unavailable, and behind no other failure
      obtain ⟨address, e, he⟩ := connect_unreachable (x := x) hc (h.unreachable _ hdown)
      have hlater := ((List.exists_mem_cons_iff _ _ _).1 hup).resolve_left (not_not.2 hdown)
      obtain ⟨found, hfound, hfoundUp, y, n, hn, hresult⟩ :=
        ih (x := ((connect c (.str seed)).run net x).state) hrest hlater
      refine ⟨found, hfound, hfoundUp, y, n, hn, ?_⟩
      simp only [he, hresult]
    · obtain ⟨n, hn⟩ := (h.seeds seed hseed hdown).1 x
      refine ⟨seed, hseed, hdown, x, n, hn, ?_⟩
      simp only [hn, Dialogue.run]

/-- **The ring is told** as soon as some seed can be reached. -/
theorem describeRing_cluster (h : k.Runs c tasks behaviour net)
    (hup : ∃ seed ∈ c.seeds, IsUp c behaviour (.str seed)) :
    ((describeRing c).run net x).result = .ok k.ring := by
  obtain ⟨first, hfirst, hfirstUp⟩ := hup
  have hc := h.canConnect hfirst hfirstUp x
  obtain ⟨seed, hseed, hseedUp, y, n, hn, hresult⟩ :=
    connectToSeed_cluster (x := x) h hc (fun _ hmem => hmem) ⟨first, hfirst, hfirstUp⟩
  obtain ⟨entries, hentries, hring⟩ :=
    (h.seeds seed hseed hseedUp).2 y n hn ((connectToSeed c c.seeds).run net x).state
  have hcall : ((Node.withName (.str c.keyspace) n.describeRing).run net
      ((connectToSeed c c.seeds).run net x).state).result = .ok (some entries) := hentries
  rw [describeRing, Dialogue.result_bind]
  simp only [hresult, Dialogue.result_bind, Dialogue.result_mapError, hcall, Except.mapError,
    Dialogue.run, readRanges, hring]

/-- A replica that can be reached tells the parts of a task. -/
theorem askHost_up (h : k.Runs c tasks behaviour net) (ht : t ∈ tasks) (hhost : host ∈ t.replicas)
    (hup : IsUp c behaviour host) :
    ∃ parts, ((askHost c t host).run net x).result = .ok parts ∧
      parts.map SubSplit.bounds = (k.chain t).zip (k.chain t).tail := by
  obtain ⟨n, hn⟩ := h.replicas t ht host hhost hup x
  have hparts : ∃ parts, ((describeParts c n t).run net ((connect c host).run net x).state).result =
      .ok parts ∧ parts.map SubSplit.bounds = (k.chain t).zip (k.chain t).tail := by
    cases hb : behaviour (c.addressOf host) with
    | unreachable => exact absurd hb hup
    | modern =>
      obtain ⟨entries, hentries, hchain⟩ := h.modern t ht host hhost hb x n hn
        ((connect c host).run net x).state
      refine ⟨_, describeParts_modern hentries, ?_⟩
      rw [← hchain, List.map_map]
      rfl
    | legacy =>
      obtain ⟨hsized, htokens⟩ := h.legacy t ht host hhost hb
      exact ⟨_, describeParts_legacy (connect_ok hn).2 hsized (htokens x n hn),
        map_bounds_between t.splitSize (k.chain t)⟩
  have hstate : (((connect c host).mapError PlanningError.ofNode).run net x).state =
      ((connect c host).run net x).state := by
    rw [Dialogue.mapError, Dialogue.run_andThen]
    rfl
  rw [askHost, Dialogue.result_bind]
  simpa only [Dialogue.result_mapError, hn, Except.mapError, hstate] using hparts

/-- A replica that cannot be reached is passed over. -/
theorem askHost_down (hc : c.CanConnect) (h : net.Unreachable (c.nodeAt host).client.server) :
    ∃ address e, ((askHost c t host).run net x).result =
      .error (.node (.unavailable address e)) := by
  obtain ⟨address, e, he⟩ := connect_unreachable (x := x) hc h
  refine ⟨address, e, ?_⟩
  rw [askHost, Dialogue.result_bind]
  simp only [Dialogue.result_mapError, he, Except.mapError, PlanningError.ofNode]

theorem askHosts_cluster (h : k.Runs c tasks behaviour net) (hc : c.CanConnect) (ht : t ∈ tasks)
    (asked : List Value) {hosts : List Value} (hsub : ∀ host ∈ hosts, host ∈ t.replicas)
    (hup : ∃ host ∈ hosts, IsUp c behaviour host) :
    ∃ parts, ((askHosts c t asked hosts).run net x).result = .ok parts ∧
      parts.map SubSplit.bounds = (k.chain t).zip (k.chain t).tail := by
  induction hosts generalizing x with
  | nil => simp at hup
  | cons host rest ih =>
    obtain ⟨hhost, hrest⟩ := List.forall_mem_cons.1 hsub
    rw [askHosts, Dialogue.run_andThen]
    by_cases hdown : behaviour (c.addressOf host) = .unreachable
    · obtain ⟨address, e, he⟩ := askHost_down (x := x) (t := t) hc (h.unreachable _ hdown)
      have hlater := ((List.exists_mem_cons_iff _ _ _).1 hup).resolve_left (not_not.2 hdown)
      obtain ⟨parts, hparts, hbounds⟩ := ih (x := ((askHost c t host).run net x).state) hrest hlater
      refine ⟨parts, ?_, hbounds⟩
      simp only [he, hparts]
    · obtain ⟨parts, hparts, hbounds⟩ := askHost_up (x := x) h ht hhost hdown
      refine ⟨parts, ?_, hbounds⟩
      simp only [hparts, Dialogue.run]

/-- **The parts of a task are told** as soon as one of its replicas can be reached. -/
theorem subSplits_cluster (h : k.Runs c tasks behaviour net) (hc : c.CanConnect) (ht : t ∈ tasks)
    (hup : ∃ host ∈ t.replicas, IsUp c behaviour host) :
    ∃ parts, ((subSplits c t).run net x).result = .ok parts ∧
      parts.map SubSplit.bounds = (k.chain t).zip (k.chain t).tail := by
  unfold subSplits
  cases hhosts : t.range.effectiveEndpoints with
  | error f => simp [Task.replicas, hhosts, Except.toOption] at hup
  | ok hosts =>
    have hreplicas : t.replicas = hosts := by simp [Task.replicas, hhosts, Except.toOption]
    rw [hreplicas] at hup
    exact askHosts_cluster h hc ht hosts (fun _ hmem => hreplicas ▸ hmem) hup

end Runs

end RingScan.Plan
