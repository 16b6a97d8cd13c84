import RingScan.Proofs.Json.RoundTrip
import RingScan.Proofs.Node.Rejections

set_option autoImplicit false

/-! # How operations of a node end

An operation is a call made with texts and a number, as callers have them. Whatever comes of its
request, it ends with an answer or with an error of one of three kinds: the node is unavailable,
does not know the call, or rejects it (`Node.operation_ends`). There is one way around this: the
name of a keyspace or a table goes into the path of the request, which is put together before the
request is made, so that a name without an encoding ends the operation with a bare fault. A message
without an encoding, on the other hand, counts as rejected.

Operations are made in sessions. One that fails leaves no trace behind: the node is afterwards what
it would be if the operation had not been made, and the same is sent for all that follow
(`Node.session_succeeded`). -/

namespace RingScan

open Http (RestError Client)
open Dialogue (Entry Yields)

/-! ## Kinds of errors -/

/-- Whether a node rejected a call, or the call was made before a keyspace was selected. -/
def NodeError.IsRejected (e : NodeError) : Prop :=
  (∃ address cause, e = .rejected address cause) ∨ ∃ address, e = .noKeyspace address

/-- Whether an error of a call is of a kind that callers of nodes tell apart. -/
def NodeError.HasKind (e : NodeError) : Prop := e.IsUnavailable ∨ e.IsUnsupported ∨ e.IsRejected

theorem NodeError.hasKind_ofRest (address : String) (e : RestError) :
    (ofRest address e).HasKind := by
  unfold ofRest
  split
  · exact .inl ⟨_, _, rfl⟩
  · exact .inr (.inl ⟨_, _, rfl⟩)
  · exact .inr (.inr (.inl ⟨_, _, rfl⟩))

namespace Node

/-- How a call of a node ends, by what is exchanged. A call is `unnamable` if it needs a name that
    has no encoding. -/
structure CallEnds {α : Type} (unnamable : Prop) (es : List Entry) (result : Except NodeError α) :
    Prop where
  /-- One request is sent at most. -/
  exchange : es = [] ∨ ∃ x, es = [.exchanged x]
  /-- All errors but one are of the kinds that are told apart. -/
  told : ∀ e, result = .error e → e.HasKind ∨ unnamable ∧ e = .fault .unencodable
  /-- The call is not made with a name that has no encoding. -/
  unnamed : unnamable → es = [] ∧ result = .error (.fault .unencodable)
  /-- The node is unavailable just if no connection was made. -/
  unavailable_iff : (∃ e, result = .error e ∧ e.IsUnavailable) ↔
    ∃ x, .exchanged x ∈ es ∧ x.outcome.isUnreachable = true
  /-- A status that tells of a rejection never leads to an answer. -/
  rejected : ∀ x r, .exchanged x ∈ es → x.outcome = .reply r → Client.isRejection r.status = true →
    ∃ e, result = .error e

/-- Whether a dialogue can only end as a call does. -/
def Ends {α : Type} (unnamable : Prop) (d : Dialogue NodeError α) : Prop :=
  ∀ es result, Yields d es result → CallEnds unnamable es result

section Ends

variable {α β : Type} {n : Node} {unnamable : Prop}

theorem callEnds_ending (n : Node) (url : String) (expected : Wire.Schema) (x : Exchange) :
    CallEnds False [.exchanged x] (n.ending url expected x.outcome) where
  exchange := .inr ⟨x, rfl⟩
  told := by
    intro e he
    left
    cases hx : x.outcome with
    | failure f =>
      rw [hx] at he
      obtain rfl := Except.error.inj he
      exact NodeError.hasKind_ofRest _ _
    | reply r =>
      simp only [hx, ending] at he
      split at he
      · cases he
      · obtain rfl := Except.error.inj he
        exact NodeError.hasKind_ofRest _ _
  unnamed := False.elim
  unavailable_iff := by
    rw [ending_unavailable_iff]
    simp
  rejected := by
    intro y r hy hr hrejection
    obtain rfl := Entry.exchanged.inj (List.mem_singleton.1 hy)
    obtain ⟨cause, hending⟩ := n.ending_rejection url expected hrejection
    exact ⟨_, hr ▸ hending⟩

/-- A call that fails before anything is sent. -/
theorem callEnds_unsent {e : NodeError} (h : e.IsRejected) (hnamable : ¬ unnamable) :
    CallEnds unnamable [] (.error e : Except NodeError α) where
  exchange := .inl rfl
  told := by
    rintro _ ⟨⟩
    exact .inl (.inr (.inr h))
  unnamed := fun hbad => absurd hbad hnamable
  unavailable_iff := by
    rcases h with ⟨address, cause, rfl⟩ | ⟨address, rfl⟩ <;> simp [NodeError.IsUnavailable]
  rejected := by simp

/-- A call that is not made since its name has no encoding. -/
theorem callEnds_unnamed (h : unnamable) :
    CallEnds unnamable [] (.error (.fault .unencodable) : Except NodeError α) where
  exchange := .inl rfl
  told := by
    rintro _ ⟨⟩
    exact .inr ⟨h, rfl⟩
  unnamed := fun _ => ⟨rfl, rfl⟩
  unavailable_iff := by simp [NodeError.IsUnavailable]
  rejected := by simp

theorem Ends.map {d : Dialogue NodeError α} (h : Ends unnamable d) (f : α → β) :
    Ends unnamable (d.bind fun a => pure (f a)) := by
  intro es result hyields
  obtain ⟨first, hfirst, rfl⟩ := Dialogue.yields_map.1 hyields
  obtain ⟨hexchange, htold, hunnamed, hunavailable, hrejected⟩ := h es first hfirst
  have herror (e : NodeError) : first.map f = .error e ↔ first = .error e := by
    cases first <;> simp [Except.map]
  refine ⟨hexchange, fun e he => htold e ((herror e).1 he), fun hbad => ?_, ?_, ?_⟩
  · exact ⟨(hunnamed hbad).1, (herror _).2 (hunnamed hbad).2⟩
  · simpa only [herror] using hunavailable
  · simpa only [herror] using hrejected

theorem ends_get (n : Node) (path : String) (expected : Wire.Schema) :
    Ends False (n.get path expected) := by
  intro es result hyields
  obtain ⟨outcome, rfl, rfl⟩ := yields_get.1 hyields
  exact callEnds_ending n _ expected ⟨_, outcome⟩

/-- A message that can be written is sent, or it has no encoding, and that is a rejection, too. -/
theorem ends_post {body : Wire.Record} (h : ∃ text, body.toText = .ok text) (n : Node)
    (path : String) (expected : Wire.Schema) : Ends False (n.post path body expected) := by
  intro es result hyields
  cases hbody : sendable? body with
  | some text =>
    obtain ⟨outcome, rfl, rfl⟩ := (yields_post hbody).1 hyields
    exact callEnds_ending n _ expected ⟨_, outcome⟩
  | none =>
    obtain ⟨text, htext⟩ := h
    have hplain : ¬ Text.Surrogate.isPlain text = true := by simpa [sendable?, htext] using hbody
    simp only [post, htext, Client.post, hplain, call] at hyields
    obtain ⟨rfl, rfl⟩ := Dialogue.yields_done.1 hyields
    exact callEnds_unsent (.inl ⟨_, _, rfl⟩) id

/-- A call with a name is made just if the name has an encoding. -/
theorem ends_withName {s : String} {f : Name → Dialogue NodeError α}
    (h : ∀ name, Ends False (f name)) :
    Ends (Text.Surrogate.isPlain s = false) (withName (.str s) f) := by
  rw [Text.Surrogate.isPlain]
  cases hs : Text.Surrogate.plain? s.toList with
  | some cs =>
    have hname : Name.ofValue (.str s) = .ok (.text (String.ofList cs)) := by
      simp [Name.ofValue, Text.Surrogate.plain, hs, Except.map]
    rw [withName_eq hname]
    simpa using h (.text (String.ofList cs))
  | none =>
    have hname : Name.ofValue (.str s) = .error .unencodable := by
      simp [Name.ofValue, Text.Surrogate.plain, hs, Except.map]
    intro es result hyields
    rw [withName, hname] at hyields
    obtain ⟨rfl, rfl⟩ := Dialogue.yields_fail.1 hyields
    exact callEnds_unnamed (by simp)

/-- A call that needs the keyspace is made just if one is selected. -/
theorem ends_withKeyspace {f : Name → Dialogue NodeError α}
    (h : ∀ keyspace, Ends unnamable (f keyspace)) :
    Ends (n.keyspace?.isSome = true ∧ unnamable) (n.withKeyspace f) := by
  unfold withKeyspace
  cases n.keyspace? with
  | some keyspace => simpa using h keyspace
  | none =>
    intro es result hyields
    obtain ⟨rfl, rfl⟩ := Dialogue.yields_fail.1 hyields
    exact callEnds_unsent (.inr ⟨_, rfl⟩) (by simp)

end Ends

/-! ## Operations -/

/-- An operation of a node, as it is asked for. -/
inductive Operation where
  | selectKeyspace (keyspace : String)
  | login (username password : String)
  | describeRing (keyspace : String)
  | describeSizedSplits (table start stop : String) (keysPerSplit : Int)
  | describeSplitTokens (table start stop : String) (keysPerSplit : Int)

/-- What an operation is answered with. -/
inductive Answer where
  | nothing
  | ring (entries? : Option (List Wire.RingEntry))
  | parts (entries? : Option (List Wire.SplitEntry))
  | tokens (tokens : Value)

/-- An operation carried out: its answer, and the node after it. A keyspace is asked for before the
    name of the table is put into the path. -/
def perform (n : Node) : Operation → Dialogue NodeError (Answer × Node)
  | .selectKeyspace keyspace =>
      (withName (.str keyspace) n.selectKeyspace).bind fun m => pure (.nothing, m)
  | .login username password =>
      (n.login (.str username) (.str password)).bind fun m => pure (.nothing, m)
  | .describeRing keyspace =>
      (withName (.str keyspace) n.describeRing).bind fun entries? => pure (.ring entries?, n)
  | .describeSizedSplits table start stop keysPerSplit =>
      (n.withKeyspace fun _ => withName (.str table) fun table =>
        n.describeSizedSplits table (.str start) (.str stop) (.int keysPerSplit)).bind
        fun entries? => pure (.parts entries?, n)
  | .describeSplitTokens table start stop keysPerSplit =>
      (n.withKeyspace fun _ => withName (.str table) fun table =>
        n.describeSplitTokens table (.str start) (.str stop) (.int keysPerSplit)).bind
        fun tokens => pure (.tokens tokens, n)

/-- Whether the number of an operation can be written. -/
def Operation.IsWritable : Operation → Prop
  | .describeSizedSplits _ _ _ keysPerSplit => Integer.isWritable keysPerSplit = true
  | .describeSplitTokens _ _ _ keysPerSplit => Integer.isWritable keysPerSplit = true
  | _ => True

/-- Whether an operation needs a name that has no encoding. The name of a table is not needed as
    long as no keyspace is selected. -/
def Operation.IsUnnamable (n : Node) : Operation → Prop
  | .selectKeyspace keyspace => Text.Surrogate.isPlain keyspace = false
  | .login _ _ => False
  | .describeRing keyspace => Text.Surrogate.isPlain keyspace = false
  | .describeSizedSplits table _ _ _ =>
      n.keyspace?.isSome = true ∧ Text.Surrogate.isPlain table = false
  | .describeSplitTokens table _ _ _ =>
      n.keyspace?.isSome = true ∧ Text.Surrogate.isPlain table = false

/-- What an operation that is answered changes of a node. -/
structure Operation.Changes (op : Operation) (n m : Node) : Prop where
  address : m.address = n.address
  client : m.client = n.client
  keyspace : m.keyspace? = match op with
    | .selectKeyspace keyspace => (Name.ofValue (.str keyspace)).toOption
    | _ => n.keyspace?
  authorization : match op with
    | .login _ _ => ∃ token, m.authorization = .bearer token
    | _ => m.authorization = n.authorization

variable {n : Node} {op : Operation}

theorem exists_toText_loginBody (username password : String) :
    ∃ text, (Wire.loginBody (.str username) (.str password)).toText = .ok text := by
  have hlegible : Json.Legible 1 (.obj (Wire.loginBody (.str username) (.str password))) :=
    .obj (by simp [Wire.loginBody]) (by simp [Wire.loginBody, Json.Legible.str])
  exact ⟨_, hlegible.toText_eq⟩

theorem exists_toText_splitsBody (start stop : String) {keysPerSplit : Int}
    (h : Integer.isWritable keysPerSplit = true) :
    ∃ text, (Wire.splitsBody (.str start) (.str stop) (.int keysPerSplit)).toText = .ok text := by
  have hlegible :
      Json.Legible 1 (.obj (Wire.splitsBody (.str start) (.str stop) (.int keysPerSplit))) :=
    .obj (by simp [Wire.splitsBody])
      (by simp [Wire.splitsBody, Json.Legible.str, Json.Legible.int 0 h])
  exact ⟨_, hlegible.toText_eq⟩

/-- What both calls about the parts of a range have in common. -/
theorem ends_onTable {α : Type} {table start stop : String} {keysPerSplit : Int}
    (h : Integer.isWritable keysPerSplit = true) (path : Name → Name → String)
    (expected : Wire.Schema) (f : Wire.Record → α) :
    Ends (n.keyspace?.isSome = true ∧ Text.Surrogate.isPlain table = false)
      (n.withKeyspace fun _ => withName (.str table) fun table => n.withKeyspace fun keyspace =>
        (n.post (path keyspace table) (Wire.splitsBody (.str start) (.str stop) (.int keysPerSplit))
          expected).bind fun r => pure (f r)) := by
  have hbody := exists_toText_splitsBody start stop h
  refine ends_withKeyspace fun _ => ends_withName fun table => ?_
  simpa using ends_withKeyspace (n := n) fun keyspace =>
    (ends_post hbody n (path keyspace table) expected).map f

/-- Every operation ends as a call does. -/
theorem ends_perform (h : op.IsWritable) : Ends (op.IsUnnamable n) (n.perform op) := by
  cases op with
  | selectKeyspace keyspace => exact (ends_withName fun name => (ends_get n _ _).map _).map _
  | login username password =>
    exact ((ends_post (exists_toText_loginBody username password) n _ _).map _).map _
  | describeRing keyspace => exact (ends_withName fun name => (ends_get n _ _).map _).map _
  | describeSizedSplits table start stop keysPerSplit => exact (ends_onTable h _ _ _).map _
  | describeSplitTokens table start stop keysPerSplit => exact (ends_onTable h _ _ _).map _

/-- An operation that is answered changes what it is to change, and nothing else. -/
theorem perform_changes {es : List Entry} {answer : Answer} {m : Node}
    (h : Yields (n.perform op) es (.ok (answer, m))) : op.Changes n m := by
  cases op with
  | selectKeyspace keyspace =>
    obtain ⟨k, hk, hm⟩ := Dialogue.yields_map_ok.1 h
    obtain ⟨-, rfl⟩ := Prod.mk.inj hm
    unfold withName at hk
    split at hk
    · next name hname =>
      obtain ⟨r, -, rfl⟩ := Dialogue.yields_map_ok.1 hk
      have hkeyspace : (Name.ofValue (.str keyspace)).toOption = some name := by
        rw [hname]
        rfl
      exact ⟨rfl, rfl, hkeyspace.symm, rfl⟩
    · cases hk
  | login username password =>
    obtain ⟨k, hk, hm⟩ := Dialogue.yields_map_ok.1 h
    obtain ⟨-, rfl⟩ := Prod.mk.inj hm
    obtain ⟨r, -, rfl⟩ := Dialogue.yields_map_ok.1 hk
    exact ⟨rfl, rfl, rfl, _, rfl⟩
  | _ =>
    obtain ⟨a, -, hm⟩ := Dialogue.yields_map_ok.1 h
    obtain ⟨-, rfl⟩ := Prod.mk.inj hm
    exact ⟨rfl, rfl, rfl, rfl⟩

/-! ## Sessions -/

/-- A node after an operation. One that fails leaves the node as it was. -/
def after (n : Node) : Except NodeError (Answer × Node) → Node
  | .ok (_, m) => m
  | .error _ => n

/-- Operations one after the other, whatever becomes of each: what they end with, and the node after
    all of them. -/
def session : Node → List Operation → Dialogue Empty (List (Except NodeError Answer) × Node)
  | n, [] => .done (.ok ([], n))
  | n, op :: later =>
      (n.perform op).andThen fun result =>
        (session (n.after result) later).bind fun rest =>
          .done (.ok (result.map Prod.fst :: rest.1, rest.2))

/-- The operations that are answered. -/
def succeeded : List Operation → List (Except NodeError Answer) → List Operation
  | op :: ops, .ok _ :: results => op :: succeeded ops results
  | _ :: ops, .error _ :: results => succeeded ops results
  | _, _ => []

section Sessions

variable {ops : List Operation} {es : List Entry} {results : List (Except NodeError Answer)}
  {m : Node}

theorem yields_session_cons :
    Yields (n.session (op :: ops)) es (.ok (results, m)) ↔
      ∃ first rest es₁ es₂, Yields (n.perform op) es₁ first ∧
        Yields ((n.after first).session ops) es₂ (.ok (rest, m)) ∧
        results = first.map Prod.fst :: rest ∧ es = es₁ ++ es₂ := by
  rw [session, Dialogue.yields_andThen]
  constructor
  · rintro ⟨es₁, first, es₂, h₁, h₂, rfl⟩
    obtain ⟨rest, hrest, hresult⟩ := Dialogue.yields_map_ok.1 h₂
    obtain ⟨rfl, rfl⟩ := Prod.mk.inj hresult
    exact ⟨first, rest.1, es₁, es₂, h₁, hrest, rfl, rfl⟩
  · rintro ⟨first, rest, es₁, es₂, h₁, h₂, rfl, rfl⟩
    exact ⟨es₁, first, es₂, h₁, Dialogue.yields_map_ok.2 ⟨(rest, m), h₂, rfl⟩, rfl⟩

/-- **Operations that fail leave no trace.** Without them, a session comes to the same: all others
    send the same, in the same order, and are answered in the same way, and the node is the same in
    the end. -/
theorem session_succeeded (h : Yields (n.session ops) es (.ok (results, m))) :
    ∃ es', Yields (n.session (succeeded ops results)) es' (.ok (results.filter (·.isOk), m)) ∧
      es'.Sublist es := by
  induction ops generalizing n es results with
  | nil =>
    obtain ⟨rfl, hresult⟩ := Dialogue.yields_done.1 h
    obtain ⟨rfl, rfl⟩ := Prod.mk.inj (Except.ok.inj hresult)
    exact ⟨[], .done _, List.Sublist.refl []⟩
  | cons op ops ih =>
    obtain ⟨first, rest, es₁, es₂, h₁, h₂, rfl, rfl⟩ := yields_session_cons.1 h
    obtain ⟨es', hes', hsub⟩ := ih h₂
    cases first with
    | error e => exact ⟨es', hes', hsub.trans (List.sublist_append_right es₁ es₂)⟩
    | ok y =>
      exact ⟨es₁ ++ es', yields_session_cons.2 ⟨.ok y, _, es₁, es', h₁, hes', rfl, rfl⟩,
        hsub.append_left es₁⟩

end Sessions

/-- **How operations of a node end.** Whatever comes of the request of an operation whose number can
    be written, the operation ends with an answer, or with an error that tells that the node is
    unavailable, does not know the call, or rejects it; only a name without an encoding makes it end
    with a bare fault before anything is sent. The node is unavailable just if no connection was
    made, and a status that tells of a rejection leads to an error. What the operation changes of
    the node it only changes if it is answered: after an error, all that follows goes as if the
    operation had not been made. -/
theorem operation_ends (n : Node) {op : Operation} (h : op.IsWritable) :
    (∀ es result, Yields (n.perform op) es result →
      CallEnds (op.IsUnnamable n) es result ∧
        ∀ answer m, result = .ok (answer, m) → op.Changes n m) ∧
    ∀ later es e results m, Yields (n.session (op :: later)) es (.ok (.error e :: results, m)) →
      ∃ es₁ es₂, Yields (n.perform op) es₁ (.error e) ∧
        Yields (n.session later) es₂ (.ok (results, m)) ∧ es = es₁ ++ es₂ := by
  constructor
  · intro es result hyields
    refine ⟨ends_perform h es result hyields, ?_⟩
    rintro answer m rfl
    exact perform_changes hyields
  · intro later es e results m hyields
    obtain ⟨first, rest, es₁, es₂, h₁, h₂, hresults, rfl⟩ := yields_session_cons.1 hyields
    cases first with
    | ok y => cases hresults
    | error e' =>
      obtain ⟨he, rfl⟩ := List.cons.inj hresults
      obtain rfl := Except.error.inj he
      exact ⟨es₁, es₂, h₁, h₂, rfl⟩

/-- A node that knows nothing of its caller. -/
def newNode : Node := atAddress "a:9160" none none

theorem operation_ends_splits :
    (Operation.describeSizedSplits "t" "0" "5" 64).IsWritable ∧
      ∀ es result, Yields (newNode.perform (.describeSizedSplits "t" "0" "5" 64)) es result →
        CallEnds ((Operation.describeSizedSplits "t" "0" "5" 64).IsUnnamable newNode) es
          result := by
  have hwritable : (Operation.describeSizedSplits "t" "0" "5" 64).IsWritable :=
    Integer.isWritable_iff.2 (lt_of_lt_of_le (by decide : 64 < 10 ^ 2)
      (Nat.pow_le_pow_right (by decide) (by decide)))
  exact ⟨hwritable, fun es result hyields =>
    ((operation_ends newNode hwritable).1 es result hyields).1⟩

/-- A name that is half of a pair. -/
def halfName : String := String.ofList (Text.Surrogate.ofCodePoint 0xd800)

/-- A keyspace whose name has no encoding is selected with a bare fault, while a user with the same
    name is rejected. -/
theorem half_keyspace_fault :
    Yields (newNode.perform (.selectKeyspace halfName)) [] (.error (.fault .unencodable)) ∧
      ¬ (NodeError.fault .unencodable).HasKind ∧
      ∃ e, Yields (newNode.perform (.login halfName "")) [] (.error e) ∧ e.IsRejected := by
  have hkeyspace : newNode.perform (.selectKeyspace halfName) =
      .done (.error (.fault .unencodable)) := by
    rfl
  have hlogin : newNode.perform (.login halfName "") =
      .done (.error (.rejected "a:9160" (.ofFault .unencodable))) := by
    rfl
  rw [hkeyspace, hlogin]
  refine ⟨.done _, ?_, _, .done _, .inl ⟨_, _, rfl⟩⟩
  simp [NodeError.HasKind, NodeError.IsUnavailable, NodeError.IsUnsupported, NodeError.IsRejected]

end Node

end RingScan
