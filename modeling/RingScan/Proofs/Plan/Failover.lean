import RingScan.Proofs.Plan.Cluster
import RingScan.Proofs.Plan.Coverage

set_option autoImplicit false

/-! # Failures of nodes cannot be seen

What a pass returns does not depend on which nodes of a cluster cannot be reached and which do not
know all calls, as long as one seed and one replica of every task can be reached
(`splits_same_on_cluster`). Every attempt at a task then gives splits whose bounds and hosts are
known beforehand (`agreedSplits`), so that no attempt fails, and the order of the splits is all that
is left open. The order in which attempts are settled does not count either
(`Cluster.Fits.agreed_of_ends`). -/

namespace RingScan.Plan

variable {σ : Type} {c : Context} {resolve : Resolver} {net : Dialogue.Network σ} {x : σ}
  {p : Partitioner} {k : Cluster} {behaviour : String → Behaviour} {t : Task}

/-! ## Splits without their sizes -/

/-- A split without its size. -/
def Split.view (s : Split) : Value × Value × List Value := (s.startToken, s.endToken, s.locations)

/-- The bounds of the pieces of a part. -/
def pieceBounds (p : Partitioner) (bounds : Value × Value) : List (Value × Value) :=
  match TokenArc.read p bounds.1 bounds.2 with
  | .error _ => []
  | .ok a =>
      match a.unwrap with
      | .error _ => []
      | .ok pieces => pieces.map fun x => (x.left.render, x.right.render)

/-- The splits between the tokens of a chain, without their sizes. -/
def viewsBetween (p : Partitioner) (locations : List Value) (bounds : List (Value × Value)) :
    List (Value × Value × List Value) :=
  bounds.flatMap fun b => (pieceBounds p b).map fun piece => (piece.1, piece.2, locations)

theorem SubSplit.map_view_splits {locations : List Value} {s : SubSplit} {splits : List Split}
    (h : s.splits p locations = .ok splits) :
    splits.map Split.view =
      (pieceBounds p s.bounds).map fun piece => (piece.1, piece.2, locations) := by
  obtain ⟨a, pieces, ha, hpieces, rfl⟩ := SubSplit.splits_ok h
  have hbounds : pieceBounds p s.bounds = pieces.map fun x => (x.left.render, x.right.render) := by
    unfold pieceBounds SubSplit.bounds
    simp only [ha, hpieces]
  rw [hbounds, List.map_map, List.map_map]
  rfl

/-- The splits of parts only depend on the bounds of the parts, but for their sizes. -/
theorem map_view_assembleAll {r : TokenRange} {parts : List SubSplit} {splits : List Split}
    {locations : List Value} (hhosts : r.hosts resolve = .ok locations)
    (h : assembleAll p resolve r parts = .ok splits) :
    splits.map Split.view = viewsBetween p locations (parts.map SubSplit.bounds) := by
  obtain ⟨-, found, pieces, hfound, hpieces, rfl⟩ := assembleAll_ok h
  obtain rfl := Except.ok.inj (hhosts.symm.trans hfound)
  rw [viewsBetween, List.flatMap_map]
  clear h
  induction hpieces with
  | nil => rfl
  | cons hs hrest ih =>
    rw [List.flatten_cons, List.map_append, List.flatMap_cons, SubSplit.map_view_splits hs, ih]

theorem unwrap_ne_nil (a : Arc p.Position) : a.unwrap p.ring ≠ [] := by
  rcases Arc.unwrap_cases p.ring a with ⟨-, h⟩ | ⟨-, -, h⟩ | ⟨-, -, h⟩ <;> simp [h]

/-! ## Hosts -/

/-- Whether a value is a text. -/
def IsText (v : Value) : Prop := ∃ s, v = .str s

/-- Addresses for clients that are texts or null, and internal ones that are texts, are resolved to
    texts. -/
theorem exists_addresses {endpoints rpcEndpoints : List Value}
    (heven : rpcEndpoints.length = endpoints.length) (hinternal : ∀ v ∈ endpoints, IsText v)
    (hrpc : ∀ v ∈ rpcEndpoints, v = .null ∨ IsText v) :
    ∃ addresses, TokenRange.resolveAddresses endpoints rpcEndpoints = .ok addresses ∧
      ∀ v ∈ addresses, IsText v := by
  induction rpcEndpoints generalizing endpoints with
  | nil => exact ⟨[], by rw [TokenRange.resolveAddresses], by simp⟩
  | cons address rest ih =>
    cases endpoints with
    | nil => simp at heven
    | cons endpoint others =>
      obtain ⟨hendpoint, hothers⟩ := List.forall_mem_cons.1 hinternal
      obtain ⟨haddress, hrest⟩ := List.forall_mem_cons.1 hrpc
      obtain ⟨addresses, haddresses, htexts⟩ := ih (by simpa using heven) hothers hrest
      -- an address that cannot be used is replaced by the internal one
      have husable : ∃ b, TokenRange.isUnusable address = .ok b ∧ (b = false → IsText address) := by
        rcases haddress with rfl | ⟨s, rfl⟩
        · exact ⟨true, rfl, by simp⟩
        · exact ⟨_, rfl, fun _ => ⟨s, rfl⟩⟩
      obtain ⟨b, hb, htext⟩ := husable
      cases b with
      | true =>
        refine ⟨endpoint :: addresses, ?_, List.forall_mem_cons.2 ⟨hendpoint, htexts⟩⟩
        simp [TokenRange.resolveAddresses, hb, haddresses, Except.map]
      | false =>
        refine ⟨address :: addresses, ?_, List.forall_mem_cons.2 ⟨htext rfl, htexts⟩⟩
        simp [TokenRange.resolveAddresses, hb, haddresses, Except.map]

/-- Whether a range has as many addresses for clients as replicas, all of them texts, where those
    for clients may be missing. -/
structure TokenRange.IsAddressed (r : TokenRange) : Prop where
  even : r.rpcEndpoints.length = r.endpoints.length
  endpoints : ∀ v ∈ r.endpoints, IsText v
  rpcEndpoints : ∀ v ∈ r.rpcEndpoints, v = .null ∨ IsText v

theorem TokenRange.IsAddressed.exists_hosts {r : TokenRange} (h : r.IsAddressed)
    (hnames : ∀ s, ∃ name, resolve (.str s) = .ok name) :
    ∃ locations, r.hosts resolve = .ok locations := by
  obtain ⟨addresses, haddresses, htexts⟩ := exists_addresses h.even h.endpoints h.rpcEndpoints
  have hresolve : ∀ v ∈ addresses, ∃ name, resolve v = .ok name := by
    intro v hv
    obtain ⟨s, rfl⟩ := htexts v hv
    exact hnames s
  obtain ⟨locations, hlocations⟩ := exists_mapM_iff.2 hresolve
  refine ⟨locations, ?_⟩
  simp only [TokenRange.hosts, TokenRange.effectiveEndpoints, haddresses, hlocations]

/-! ## Tasks -/

/-- The tasks of a pass over a cluster. -/
def Cluster.tasks (k : Cluster) (c : Context) : List Task :=
  (restrict (.int c.splitSize) (job c) k.ring).toOption.getD []

/-- Every task is for a range of the ring or a part of it, which has the same replicas. -/
theorem exists_range_of_mem {size : Value} {ranges : List TokenRange} {tasks : List Task}
    {job? : Option (Arc p.Position)} (h : restrict size job? ranges = .ok tasks) (ht : t ∈ tasks) :
    ∃ r ∈ ranges, ∃ start stop, t.range = r.withBounds start stop := by
  obtain ⟨i, hpiece⟩ := exists_piece_of_mem h ht
  obtain ⟨start, stop, hrange⟩ := hpiece.exists_withBounds
  exact ⟨ranges[i], List.getElem_mem i.isLt, start, stop, hrange⟩

/-! ## What a cluster agrees on -/

/-- What makes a cluster fit for a pass: its ranges have tokens and addresses that can be used, and
    the parts of every task lie between two tokens at least. A context whose restriction cannot be
    used has no tasks. -/
structure Cluster.Fits (k : Cluster) (c : Context) : Prop where
  restriction : jobArc c.partitioner c.keyRestriction? = .ok (job c)
  positions : ∀ r ∈ k.ring,
    IsPosition c.partitioner r.startToken ∧ IsPosition c.partitioner r.endToken
  addresses : ∀ r ∈ k.ring, r.IsAddressed
  tasks : k.tasks c ≠ []
  chain : ∀ t ∈ k.tasks c, 2 ≤ (k.chain t).length ∧ ∀ v ∈ k.chain t, IsPosition c.partitioner v

/-- The splits of a task, without their sizes, as the nodes of a cluster agree on them. -/
def agreedSplits (k : Cluster) (c : Context) (resolve : Resolver) (t : Task) :
    List (Value × Value × List Value) :=
  match t.range.hosts resolve with
  | .error _ => []
  | .ok locations => viewsBetween c.partitioner locations ((k.chain t).zip (k.chain t).tail)

theorem Cluster.Fits.restrict_eq (h : k.Fits c) :
    restrict (.int c.splitSize) (job c) k.ring = .ok (k.tasks c) := by
  have hnarrow : ∀ a ∈ job c, ∀ r ∈ k.ring, ∃ rs, TokenRange.narrow r a = .ok rs := by
    intro a _ r hr
    obtain ⟨b, hb⟩ := exists_arc (h.positions r hr).1 (h.positions r hr).2
    exact TokenRange.exists_narrow hb a
  obtain ⟨tasks, htasks⟩ := (exists_restrict_iff (.int c.splitSize)).2 hnarrow
  simp [Cluster.tasks, htasks, Except.toOption]

theorem Cluster.Fits.isAddressed (h : k.Fits c) (ht : t ∈ k.tasks c) : t.range.IsAddressed := by
  obtain ⟨r, hr, start, stop, hrange⟩ := exists_range_of_mem h.restrict_eq ht
  rw [hrange]
  exact ⟨(h.addresses r hr).even, (h.addresses r hr).endpoints, (h.addresses r hr).rpcEndpoints⟩

/-- Every attempt at a task gives the splits that the cluster agrees on, whenever it is made. -/
theorem attempt_cluster (hk : k.Fits c) (hnames : ∀ s, ∃ name, resolve (.str s) = .ok name)
    (h : k.Runs c (k.tasks c) behaviour net) (hc : c.CanConnect) (ht : t ∈ k.tasks c)
    (hup : ∃ host ∈ t.replicas, IsUp c behaviour host) :
    ∃ splits, ((attempt c resolve t).run net x).result = .ok splits ∧
      splits.map Split.view = agreedSplits k c resolve t := by
  obtain ⟨parts, hparts, hbounds⟩ := subSplits_cluster (x := x) h hc ht hup
  have haddressed := hk.isAddressed ht
  obtain ⟨locations, hlocations⟩ := haddressed.exists_hosts hnames
  have hpositions : ∀ s ∈ parts,
      IsPosition c.partitioner s.startToken ∧ IsPosition c.partitioner s.endToken := by
    intro s hs
    have hmem : s.bounds ∈ (k.chain t).zip (k.chain t).tail := by
      rw [← hbounds]
      exact List.mem_map_of_mem hs
    obtain ⟨hstart, hstop⟩ := List.of_mem_zip hmem
    exact ⟨(hk.chain t ht).2 _ hstart, (hk.chain t ht).2 _ (List.mem_of_mem_tail hstop)⟩
  obtain ⟨splits, hsplits⟩ := exists_assembleAll haddressed.even hlocations hpositions
  refine ⟨splits, ?_, ?_⟩
  · rw [attempt, Dialogue.result_bind]
    simp only [hparts, Dialogue.run, hsplits]
  · rw [map_view_assembleAll hlocations hsplits, hbounds]
    simp only [agreedSplits, hlocations]

/-- The cluster agrees on some split at least. -/
theorem agreedSplits_ne_nil (hk : k.Fits c) (hnames : ∀ s, ∃ name, resolve (.str s) = .ok name)
    (ht : t ∈ k.tasks c) : agreedSplits k c resolve t ≠ [] := by
  obtain ⟨locations, hlocations⟩ := (hk.isAddressed ht).exists_hosts hnames
  obtain ⟨hlength, hpositions⟩ := hk.chain t ht
  obtain ⟨start, stop, rest, hchain⟩ : ∃ start stop rest, k.chain t = start :: stop :: rest := by
    match hchain : k.chain t with
    | [] => simp [hchain] at hlength
    | [token] => simp [hchain] at hlength
    | start :: stop :: rest => exact ⟨start, stop, rest, rfl⟩
  rw [hchain] at hpositions
  obtain ⟨a, ha⟩ := exists_arc (hpositions start (by simp)) (hpositions stop (by simp))
  have hpieces : (TokenArc.ofArc a).unwrap =
      .ok ((a.unwrap c.partitioner.ring).map TokenArc.ofArc) := rfl
  simp [agreedSplits, hlocations, hchain, viewsBetween, pieceBounds, ha, hpieces, unwrap_ne_nil]

/-! ## The same splits whatever fails -/

/-- A collection of the tasks of a cluster returns the splits that the cluster agrees on, in
    whatever order attempts are settled, and hands in none of them again. -/
theorem Cluster.Fits.agreed_of_ends {limit : ℕ} {log : Collection.Log (k.tasks c)}
    {left : Collection.Stage (k.tasks c)} {ending : Collection.Ending} (hk : k.Fits c)
    (hnames : ∀ s, ∃ name, resolve (.str s) = .ok name)
    (h : k.Runs c (k.tasks c) behaviour net) (hc : c.CanConnect)
    (hup : ∀ t ∈ k.tasks c, ∃ host ∈ t.replicas, IsUp c behaviour host)
    (hends : Collection.Ends limit log left ending)
    (hlog : ∀ a e, (a, e) ∈ log → ∃ y, ((attempt c resolve a.task).run net y).result = e) :
    ∃ splits, ending = .ok splits ∧
      (splits.map Split.view).Perm ((k.tasks c).flatMap (agreedSplits k c resolve)) ∧
      left.pending = [] ∧ left.retries = 0 := by
  have hagreed : ∀ a e, (a, e) ∈ log → ∃ splits, e = .ok splits ∧
      splits.map Split.view = agreedSplits k c resolve a.task := by
    intro a e ha
    obtain ⟨y, rfl⟩ := hlog a e ha
    have ht : a.task ∈ k.tasks c := List.get_mem (k.tasks c) a.place
    exact attempt_cluster hk hnames h hc ht (hup a.task ht)
  -- no attempt fails, whenever it is made, so that no retry is needed
  obtain ⟨⟨splits, rfl⟩, hpending, hretries⟩ := hends.exists_ok fun a e ha => by
    obtain ⟨splits, hsplits, -⟩ := hagreed a _ ha
    simp at hsplits
  refine ⟨splits, rfl, ?_, hpending, hretries⟩
  obtain ⟨found, hperm, rfl, hfound⟩ := hends.exists_found
  have hviews : (found.flatMap Prod.snd).map Split.view =
      (found.map Prod.fst).flatMap (agreedSplits k c resolve) := by
    rw [List.map_flatMap, List.flatMap_map]
    refine List.flatMap_congr fun y hy => ?_
    obtain ⟨a, ha, hgave⟩ := hfound y hy
    obtain ⟨splits, hsplits, hview⟩ := hagreed a _ hgave
    rw [← ha, ← hview, Except.ok.inj hsplits]
  rw [hviews]
  exact hperm.flatMap_right _

theorem poolReport?_append (events : List Event) (r : PoolReport) :
    Dialogue.poolReport? (events ++ [.noted (.poolClosed r)]) = some r := by
  simp [Dialogue.poolReport?]

/-- **Failures of nodes and the age of nodes cannot be seen.** Take a cluster that is fit for a
    pass: there is a task, and its nodes agree on the ring and on the tokens between the parts of
    every task. Then the splits are known up to their order and their sizes, whichever nodes cannot
    be reached and whichever do not know the call for sized parts, as long as some seed and some
    replica of every task can be reached; and a pass returns them without handing in any task again.
    -/
theorem splits_same_on_cluster (c : Context) (k : Cluster) (resolve : Resolver) (hk : k.Fits c)
    (hnames : ∀ s, ∃ name, resolve (.str s) = .ok name) :
    ∃ agreed : List (Value × Value × List Value),
      ∀ {σ : Type} (net : Dialogue.Network σ) (x : σ) (behaviour : String → Behaviour),
        k.Runs c (k.tasks c) behaviour net →
        (∃ seed ∈ c.seeds, IsUp c behaviour (.str seed)) →
        (∀ t ∈ k.tasks c, ∃ host ∈ t.replicas, IsUp c behaviour host) →
        ∃ splits, ((plan c resolve).run net x).result = .ok splits ∧
          (splits.map Split.view).Perm agreed ∧
          Dialogue.poolReport? ((plan c resolve).run net x).events =
            some ⟨workersFor c (k.tasks c).length, (k.tasks c).length, 0⟩ := by
  refine ⟨(k.tasks c).flatMap (agreedSplits k c resolve), ?_⟩
  intro σ net x behaviour hruns hseed hreplicas
  obtain ⟨seed, hmem, hup⟩ := hseed
  have hc := hruns.canConnect hmem hup x
  have hring := describeRing_cluster (x := x) hruns ⟨seed, hmem, hup⟩
  obtain ⟨log, left, hends, hlog, events, hevents⟩ := Collection.run_ends c.maxRetries
    (workersFor c (k.tasks c).length) (attempt c resolve) net (k.tasks c)
    ((describeRing c).run net x).state
  obtain ⟨splits, hsplits, hperm, hpending, hretries⟩ :=
    hk.agreed_of_ends hnames hruns hc hreplicas hends fun a e ha => by
      obtain ⟨y, -, hy⟩ := Collection.exists_made hlog ha
      exact ⟨y, hy⟩
  have hreport : Collection.close (workersFor c (k.tasks c).length) (k.tasks c).length
      left.collection =
        .poolClosed ⟨workersFor c (k.tasks c).length, (k.tasks c).length, 0⟩ := by
    simp [Collection.close, Collection.report, Collection.Stage.collection, hpending, hretries]
  rw [hreport] at hevents
  -- a pass without splits would be refused
  have hne : splits ≠ [] := by
    rintro rfl
    obtain ⟨t, ht⟩ := List.exists_mem_of_ne_nil _ hk.tasks
    obtain ⟨view, hview⟩ := List.exists_mem_of_ne_nil _ (agreedSplits_ne_nil hk hnames ht)
    have hnil : view ∈ ([] : List Split).map Split.view :=
      hperm.mem_iff.2 (List.mem_flatMap.2 ⟨t, ht, hview⟩)
    simp at hnil
  have hplan : ∃ y, (plan c resolve).run net x =
      ⟨.ok splits, ((describeRing c).run net x).events ++ (events ++
        [.noted (.poolClosed ⟨workersFor c (k.tasks c).length, (k.tasks c).length, 0⟩)]), y⟩ := by
    rw [plan]
    simp only [hk.restriction]
    rw [Dialogue.run_bind_ok hring]
    simp only [hk.restrict_eq, collect]
    rw [Dialogue.run_bind_ok hsplits]
    simp only [List.isEmpty_iff, hne, if_false, pure, Dialogue.run, hevents, List.append_nil]
    exact ⟨_, rfl⟩
  obtain ⟨y, hplan⟩ := hplan
  rw [hplan]
  exact ⟨splits, rfl, hperm, by rw [← List.append_assoc, poolReport?_append]⟩

/-! ## A cluster of three nodes -/

/-- The same context with another seed behind it. -/
def twoSeeds : Context :=
  { oneSeed with
    seeds := ["a", "b"]
    seeds_ne := by decide }

/-- A task all around the ring, with three replicas. -/
def aroundTask : Task where
  range := ⟨.str "0", .str "0", [.str "a", .str "b", .str "d"], [.null, .str "0.0.0.0", .str "d"]⟩
  splitSize := .int 64

/-- A cluster of three nodes, which cut the one range of their ring in two. -/
def threeNodes : Cluster where
  ring := [aroundTask.range]
  chain := fun _ => [.str "0", .str "5", .str "0"]

/-- The first node cannot be reached, and the second one does not know all calls. -/
def mixed (address : String) : Behaviour :=
  if address = "a:9160" then .unreachable else if address = "b:9160" then .legacy else .modern

/-- Whether a text ends with another one. -/
def endsWith (text stop : String) : Bool := stop.toList.isSuffixOf text.toList

/-- A network in which the three nodes behave in this way. -/
def mixedNetwork : Dialogue.Network Unit := fun _ request =>
  let reply (status : Nat) (body : String) : Outcome × Unit := (.reply ⟨status, body, []⟩, ())
  if "http://a:".toList.isPrefixOf request.url.toList then (.failure .connection, ())
  else if endsWith request.url "/ring" then
    reply 200 ("\x7b\"ranges\":[\x7b\"startToken\":\"0\",\"endToken\":\"0\"," ++
      "\"endpoints\":[\"a\",\"b\",\"d\"],\"rpcEndpoints\":[null,\"0.0.0.0\",\"d\"]\x7d]\x7d")
  else if endsWith request.url "/split-tokens" then
    reply 200 "\x7b\"tokens\":[\"0\",\"5\",\"0\"]\x7d"
  else if endsWith request.url "/splits" then
    if "http://b:".toList.isPrefixOf request.url.toList then reply 501 "no such call"
    else
      reply 200 ("\x7b\"splits\":[\x7b\"startToken\":\"0\",\"endToken\":\"5\",\"rowCount\":3\x7d," ++
        "\x7b\"startToken\":\"5\",\"endToken\":\"0\",\"rowCount\":4\x7d]\x7d")
  else reply 200 "\x7b\x7d"

theorem isPosition_render {p : Partitioner} {y : p.Position} (h : y.isWritable = true) :
    IsPosition p (.str y.render) := ⟨y, Token.read_render h⟩

/-- What is called after a dialogue on a network without a state, by what is called in one go. -/
theorem result_of_bind {ε α β γ : Type} {net : Dialogue.Network Unit} {x y : Unit}
    {d : Dialogue ε α} {f : α → Dialogue ε β} {g : β → Option γ} {a : α} {b : γ}
    (ha : (d.run net x).result = .ok a)
    (hb : ((d.bind f).run net ()).result.toOption.bind g = some b) :
    ∃ found, ((f a).run net y).result = .ok found ∧ g found = some b := by
  rw [Dialogue.result_bind, ha] at hb
  cases hf : ((f a).run net y).result with
  | error e => simp [hf, Except.toOption] at hb
  | ok found => exact ⟨found, rfl, by simpa [hf, Except.toOption] using hb⟩

theorem ok_of_toOption {ε α : Type} {result : Except ε α} {a : α} (h : result.toOption = some a) :
    result = .ok a := by
  cases result with
  | error e => simp [Except.toOption] at h
  | ok b => rw [← Option.some.inj h]

theorem tasks_threeNodes : threeNodes.tasks twoSeeds = [aroundTask] := rfl

theorem replicas_aroundTask : aroundTask.replicas = [.str "a", .str "b", .str "d"] := rfl

theorem eq_of_mem_replicas {t : Task} {host : Value} (ht : t ∈ threeNodes.tasks twoSeeds)
    (hhost : host ∈ t.replicas) :
    t = aroundTask ∧ (host = .str "a" ∨ host = .str "b" ∨ host = .str "d") := by
  rw [tasks_threeNodes] at ht
  obtain rfl := List.mem_singleton.1 ht
  rw [replicas_aroundTask] at hhost
  exact ⟨rfl, by simpa using hhost⟩

theorem fits_threeNodes : threeNodes.Fits twoSeeds where
  restriction := rfl
  positions := by
    have hzero : IsPosition .murmur3 (.str "0") := by
      have h := isPosition_render (p := .murmur3) (y := (0 : Int)) (by decide +kernel)
      rwa [show Partitioner.Position.render (p := .murmur3) (0 : Int) = "0" from rfl] at h
    exact List.forall_mem_singleton.2 ⟨hzero, hzero⟩
  addresses := by
    refine List.forall_mem_singleton.2 ⟨rfl, ?_, ?_⟩ <;> simp [IsText, aroundTask]
  tasks := by decide +kernel
  chain := by
    have hposition (n : Int) (h : n.natAbs ≤ 2 ^ 127) :
        IsPosition .murmur3 (.str (Integer.toText n)) :=
      isPosition_render (p := .murmur3) (y := n) (Partitioner.isWritable_of_natAbs_le h)
    have hzero := hposition 0 (by decide)
    have hfive := hposition 5 (by decide)
    rw [show Integer.toText 0 = "0" from rfl] at hzero
    rw [show Integer.toText 5 = "5" from rfl] at hfive
    simpa [threeNodes] using fun _ _ => ⟨hzero, hfive, hzero⟩

theorem behaviour_a : mixed (twoSeeds.addressOf (.str "a")) = .unreachable := rfl

theorem behaviour_b : mixed (twoSeeds.addressOf (.str "b")) = .legacy := rfl

theorem behaviour_d : mixed (twoSeeds.addressOf (.str "d")) = .modern := rfl

theorem exists_node_b (x : Unit) :
    ∃ n, ((connect twoSeeds (.str "b")).run mixedNetwork x).result = .ok n :=
  exists_ok (show ((connect twoSeeds (.str "b")).run mixedNetwork ()).result.isOk = true by
    decide +kernel)

theorem exists_node_d (x : Unit) :
    ∃ n, ((connect twoSeeds (.str "d")).run mixedNetwork x).result = .ok n :=
  exists_ok (show ((connect twoSeeds (.str "d")).run mixedNetwork ()).result.isOk = true by
    decide +kernel)

theorem unreachable_a : mixedNetwork.Unreachable "http://a:9160" := by
  rintro x request ⟨path, hurl⟩
  have hprefix : "http://a:".toList.isPrefixOf request.url.toList = true := by
    obtain ⟨rest, hrest⟩ : ∃ rest, request.url = "http://a:9160" ++ rest := by
      simp only [hurl, Http.locate, List.isEmpty_nil, if_true]
      split
      · exact ⟨"", by decide⟩
      · exact ⟨path, rfl⟩
    rw [hrest, String.toList_append]
    rfl
  refine ⟨.connection, ?_, .inl rfl⟩
  rw [mixedNetwork, if_pos hprefix]

theorem runs_mixedNetwork :
    threeNodes.Runs twoSeeds (threeNodes.tasks twoSeeds) mixed mixedNetwork where
  unreachable := by
    intro host hdown
    have haddress : twoSeeds.addressOf host = "a:9160" := by
      unfold mixed at hdown
      split at hdown
      · assumption
      · split at hdown <;> simp at hdown
    have hserver : (twoSeeds.nodeAt host).client.server = "http://a:9160" := by
      rw [Context.nodeAt, haddress]
      decide +kernel
    rw [hserver]
    exact unreachable_a
  seeds := by
    intro seed hseed hup
    rcases List.mem_pair.1 hseed with rfl | rfl
    · exact absurd behaviour_a hup
    · refine ⟨exists_node_b, fun x n hn y => ?_⟩
      obtain ⟨entries?, hcall, hentries⟩ := result_of_bind (y := y) (f := callRing twoSeeds)
        (g := fun entries? =>
          entries?.bind fun entries => (entries.mapM TokenRange.ofEntry).toOption)
        (b := threeNodes.ring) hn (by decide +kernel)
      obtain ⟨entries, rfl, hring⟩ := Option.bind_eq_some_iff.1 hentries
      exact ⟨entries, hcall, ok_of_toOption hring⟩
  replicas := by
    intro t ht host hhost hup
    obtain ⟨rfl, rfl | rfl | rfl⟩ := eq_of_mem_replicas ht hhost
    · exact absurd behaviour_a hup
    · exact exists_node_b
    · exact exists_node_d
  modern := by
    intro t ht host hhost hmodern x n hn y
    obtain ⟨rfl, rfl | rfl | rfl⟩ := eq_of_mem_replicas ht hhost
    · simp [behaviour_a] at hmodern
    · simp [behaviour_b] at hmodern
    · obtain ⟨entries?, hcall, hentries⟩ := result_of_bind (y := y)
        (f := fun n => callSized twoSeeds n aroundTask)
        (g := fun entries? => entries?.map fun entries =>
          entries.map fun e => (e.startToken, e.endToken))
        (b := [(.str "0", .str "5"), (.str "5", .str "0")]) hn (by decide +kernel)
      obtain ⟨entries, rfl, hchain⟩ := Option.map_eq_some_iff.1 hentries
      exact ⟨entries, hcall, hchain⟩
  legacy := by
    intro t ht host hhost hlegacy
    obtain ⟨rfl, rfl | rfl | rfl⟩ := eq_of_mem_replicas ht hhost
    · simp [behaviour_a] at hlegacy
    · refine ⟨?_, fun x n hn y => ?_⟩
      · rintro y request ⟨keyspace, table, hkeyspace, htable, hurl⟩
        obtain rfl : .text "k" = keyspace := Except.ok.inj hkeyspace
        obtain rfl : .text "t" = table := Except.ok.inj htable
        have hurl : request.url = "http://b:9160/v1/keyspaces/k/tables/t/splits" := by
          rw [hurl]
          decide +kernel
        refine ⟨⟨501, "no such call", []⟩, ?_, rfl, ?_⟩
        · unfold mixedNetwork
          rw [hurl]
          rfl
        · intro r hr
          have hnone : (Wire.errorResponse.readSource (.str "no such call")).isOk = false := by
            decide +kernel
          rw [hr] at hnone
          simp [Except.isOk, Except.toBool] at hnone
      · obtain ⟨tokens, hcall, htokens⟩ := result_of_bind (y := y)
          (f := fun n => callTokens twoSeeds n aroundTask) (g := some)
          (b := .arr [.str "0", .str "5", .str "0"]) hn (by decide +kernel)
        rwa [Option.some.inj htokens] at hcall
    · simp [behaviour_d] at hlegacy

/-- Two of the three nodes leave the splits as they are. -/
theorem splits_same_on_threeNodes :
    ∃ agreed : List (Value × Value × List Value),
      ∃ splits, ((plan twoSeeds .ok).run mixedNetwork ()).result = .ok splits ∧
          (splits.map Split.view).Perm agreed ∧
          Dialogue.poolReport? ((plan twoSeeds .ok).run mixedNetwork ()).events =
            some ⟨workersFor twoSeeds 1, 1, 0⟩ := by
  obtain ⟨agreed, hagreed⟩ := splits_same_on_cluster twoSeeds threeNodes .ok fits_threeNodes
    fun s => ⟨.str s, rfl⟩
  have hb : IsUp twoSeeds mixed (.str "b") := by
    rw [IsUp, behaviour_b]
    decide
  refine ⟨agreed, hagreed mixedNetwork () mixed runs_mixedNetwork ⟨"b", by decide, hb⟩ ?_⟩
  rw [tasks_threeNodes]
  refine List.forall_mem_singleton.2 ⟨.str "b", ?_, hb⟩
  rw [replicas_aroundTask]
  simp

end RingScan.Plan
