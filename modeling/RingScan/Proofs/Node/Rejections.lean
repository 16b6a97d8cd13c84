import RingScan.Proofs.Node.Exchanges

set_option autoImplicit false

/-! # Rejections and their codes

An answer that rejects a call has a *code*: the one in its body if the body is an object that has
one, and else the status of the answer. The code alone tells whether the node does not know the call
or refuses it for another reason (`ending_rejection`), and this is so for every call
(`make_heedsRejections`). -/

namespace RingScan

open Http (RestError Client)
open Dialogue (Entry Yields)

/-! ## Reading an error body -/

namespace Wire

theorem lookup?_filter (known : String → Bool) (name : String) (given : List (String × Value)) :
    Value.lookup? name (given.filter fun m => known m.1) =
      if known name then Value.lookup? name given else none := by
  induction given with
  | nil => simp [Value.lookup?]
  | cons m rest ih =>
    obtain ⟨key, v⟩ := m
    by_cases hkey : key = name
    · subst hkey
      cases hknown : known key <;> simp [Value.lookup?, hknown, ih]
    · cases hknown : known key <;> simp [Value.lookup?, hknown, hkey, ih]

/-- Of a message whose members are taken as they are, the members that it knows are read. -/
theorem Schema.readMembers_plain {s : Schema} (h : ∀ m ∈ s, m.content = .plain)
    (given : List (String × Value)) :
    s.readMembers given = .ok (given.filter fun m => (s.find? m.1).isSome) := by
  induction given with
  | nil => rfl
  | cons m rest ih =>
    obtain ⟨name, v⟩ := m
    cases hfound : s.find? name with
    | none => simp [readMembers, hfound, ih]
    | some member =>
      have hplain : member.content = .plain := h member (List.mem_of_find?_eq_some hfound)
      simp [readMembers, hfound, hplain, Content.read, ih, Except.map]

/-- Members that may all be missing are filled up with null. -/
theorem fill_null {fields : List Field} (h : ∀ f ∈ fields, f.default? = some .null)
    (given : Record) :
    fill fields given = .ok (fields.map fun f => (f.name, given.value f.name)) := by
  induction fields with
  | nil => rfl
  | cons f rest ih =>
    obtain ⟨hf, hrest⟩ := List.forall_mem_cons.1 h
    have htail := ih hrest
    unfold fill at htail ⊢
    rw [List.mapM_cons, htail, List.map_cons, Record.value]
    cases hgiven : Value.lookup? f.name given <;> simp [hf, bind, Except.bind, pure, Except.pure]

/-- Every object is an error body, and its code is what it has under that name. -/
theorem read_errorResponse (given : List (String × Value)) :
    ∃ r, errorResponse.read (.obj given) = .ok r ∧
      (ErrorBody.ofRecord r).code = Record.value given "code" := by
  have hplain : ∀ m ∈ errorResponse, m.content = .plain := by simp [errorResponse, Field.plain]
  have hnull : ∀ f ∈ errorResponse.fields, f.default? = some .null := by
    simp [errorResponse, Schema.fields, Field.plain, Field.optional]
  let known := given.filter fun m => (errorResponse.find? m.1).isSome
  have hread : errorResponse.read (.obj given) =
      .ok (errorResponse.fields.map fun f => (f.name, Record.value known f.name)) := by
    simp only [Schema.read, Schema.readMembers_plain hplain]
    exact fill_null hnull known
  have hcode : Value.lookup? "code" known = Value.lookup? "code" given := by
    have hknown : (errorResponse.find? "code").isSome = true := by decide
    rw [lookup?_filter fun name => (errorResponse.find? name).isSome, if_pos hknown]
  refine ⟨_, hread, ?_⟩
  rw [Record.value, ← hcode]
  rfl

end Wire

/-! ## Codes -/

/-- The code in the body of an answer. -/
def Reply.bodyCode? (r : Reply) : Option Value :=
  match Json.ofText r.body with
  | .ok (.obj members) => (Value.lookup? "code" members).filter fun v => !v.isNull
  | _ => none

/-- The code of an answer that rejects a call: the one in its body, or else its status. -/
def Reply.code (r : Reply) : Value := r.bodyCode?.getD (.int r.status)

/-- What is read of a rejection has its code. -/
theorem Http.RestError.code_parseBody_eq (r : Reply) :
    (RestError.parseBody (.str r.body) (.int r.status)).code = r.code := by
  unfold RestError.parseBody
  by_cases hbody : r.body = ""
  · have hnothing : Json.ofText "" = .error .malformed := by decide +kernel
    simp [hbody, Value.isTruthy, Reply.code, Reply.bodyCode?, hnothing, RestError.plainBody]
  · have htruthy : (Value.str r.body).isTruthy = true := by simpa [Value.isTruthy] using hbody
    simp only [htruthy, Bool.not_true, Bool.false_eq_true, if_false, Wire.Schema.readSource,
      Wire.Schema.readText, Reply.code, Reply.bodyCode?]
    cases hjson : Json.ofText r.body with
    | error e => rfl
    | ok v =>
      cases v with
      | obj members =>
        obtain ⟨e, he, hcode⟩ := Wire.read_errorResponse members
        simp only [he, hcode, Wire.Record.value]
        cases hmember : Value.lookup? "code" members with
        | none => simp [Value.isNull]
        | some v =>
          have hfilter : (some v).filter (fun v => !v.isNull) = if v.isNull then none else some v := by
            cases hnull : v.isNull <;> simp [Option.filter, hnull]
          by_cases hnull : v.isNull = true <;> simp [hfilter, hnull, hcode, hmember, Wire.Record.value]
      | _ => rfl

/-! ## What a code tells -/

theorem Value.equals_int_iff {n : Int} {v : Value} :
    (Value.int n).equals v = true ↔
      ∃ x, v.number? = some x ∧ compareNumbers? (.inl n) x = some .eq := by
  cases v <;> simp [equals, isNan, same, number?, sameNumber]

/-- A value is equal to one whole number at most. -/
theorem Value.eq_of_equals {m n : Int} {v : Value} (hm : (Value.int m).equals v = true)
    (hn : (Value.int n).equals v = true) : m = n := by
  obtain ⟨x, hx, hm⟩ := equals_int_iff.1 hm
  obtain ⟨y, hy, hn⟩ := equals_int_iff.1 hn
  obtain rfl := Option.some.inj (hx.symm.trans hy)
  cases x with
  | inl k =>
    simp only [compareNumbers?, Option.some.injEq, Int.compare_eq_eq] at hm hn
    rw [hm, hn]
  | inr x =>
    cases x with
    | finite negative significand unit =>
      -- both are the one number over the denominator that fractions share
      simp only [compareNumbers?, Binary64.compareInt?, Option.map_some, Option.some.injEq,
        Ordering.swap_eq_eq, Int.compare_eq_eq] at hm hn
      have hne : Binary64.denominator ≠ 0 := by decide +kernel
      exact Int.eq_of_mul_eq_mul_right (Int.natCast_ne_zero.2 hne) (hm.symm.trans hn)
    | infinite negative => cases negative <;> simp [compareNumbers?, Binary64.compareInt?] at hm
    | nan payload => simp [compareNumbers?, Binary64.compareInt?] at hm

/-- Whether an answer says that the node does not know the call. -/
def Reply.IsNotImplemented (r : Reply) : Prop := (Value.int 501).equals r.code = true

instance (r : Reply) : Decidable r.IsNotImplemented :=
  inferInstanceAs (Decidable ((Value.int 501).equals r.code = true))

theorem Http.RestError.kind_ofBody_iff (e : Wire.ErrorBody) (id : Value) :
    (RestError.ofBody e id).kind = .notImplemented ↔ (Value.int 501).equals e.code = true := by
  simp only [RestError.ofBody, RestError.ofCode]
  constructor
  · intro h
    split_ifs at h
    assumption
  · intro h
    -- a code that is 501 is no other number
    have hne (n : Int) (hn : n ≠ 501) : ¬ (Value.int n).equals e.code = true :=
      fun h' => hn (Value.eq_of_equals h' h)
    simp [hne, h]

namespace Node

/-- **The code of a rejection decides the error of the call.** -/
theorem ending_rejection (n : Node) (url : String) (expected : Wire.Schema) {r : Reply}
    (hrejection : Client.isRejection r.status = true) :
    ∃ cause, n.ending url expected (.reply r) =
      .error (if r.IsNotImplemented then .unsupported n.address cause
        else .rejected n.address cause) := by
  let error := RestError.ofBody (RestError.parseBody (.str r.body) (.int r.status))
    ((Http.Headers.find? RestError.requestIdHeader r.headers).getD (.str RestError.unknownRequest))
  have hinterpret : Client.interpret (some expected) r = .error error := by
    rw [Client.interpret, if_pos hrejection]
  have hkind : error.kind = .notImplemented ↔ r.IsNotImplemented := by
    rw [Reply.IsNotImplemented, ← RestError.code_parseBody_eq]
    exact RestError.kind_ofBody_iff _ _
  refine ⟨error, ?_⟩
  simp only [ending, hinterpret, NodeError.ofRest]
  split
  · next h => exact absurd h (RestError.kind_ofBody_ne _ _)
  · next h => rw [if_pos (hkind.1 h)]
  · next h => rw [if_neg fun h' => h (hkind.2 h')]

/-! ## Every call -/

/-- The calls of a node. -/
inductive Call where
  | login (username password : Value)
  | selectKeyspace (keyspace : Name)
  | describeRing (keyspace : Name)
  | describeSizedSplits (table : Name) (start stop keysPerSplit : Value)
  | describeSplitTokens (table : Name) (start stop keysPerSplit : Value)

/-- A call made, where it does not matter what is answered. -/
def make (n : Node) : Call → Dialogue NodeError Unit
  | .login username password => (n.login username password).bind fun _ => pure ()
  | .selectKeyspace keyspace => (n.selectKeyspace keyspace).bind fun _ => pure ()
  | .describeRing keyspace => (n.describeRing keyspace).bind fun _ => pure ()
  | .describeSizedSplits table start stop keysPerSplit =>
      (n.describeSizedSplits table start stop keysPerSplit).bind fun _ => pure ()
  | .describeSplitTokens table start stop keysPerSplit =>
      (n.describeSplitTokens table start stop keysPerSplit).bind fun _ => pure ()

/-- Whether a dialogue with a node ends as the code of a rejection says, if its request is
    rejected. -/
def HeedsRejections {α : Type} (n : Node) (d : Dialogue NodeError α) : Prop :=
  ∀ es result, Yields d es result → ∀ e : Exchange, .exchanged e ∈ es → ∀ r, e.outcome = .reply r →
    Client.isRejection r.status = true →
    ∃ cause, result = .error (if r.IsNotImplemented then .unsupported n.address cause
      else .rejected n.address cause)

section HeedsRejections

variable {α β : Type} {n : Node}

theorem HeedsRejections.map {d : Dialogue NodeError α} (h : n.HeedsRejections d) (f : α → β) :
    n.HeedsRejections (d.bind fun a => pure (f a)) := by
  intro es result hyields e he r hr hrejection
  obtain ⟨first, hfirst, rfl⟩ := Dialogue.yields_map.1 hyields
  obtain ⟨cause, rfl⟩ := h es first hfirst e he r hr hrejection
  exact ⟨cause, rfl⟩

theorem heedsRejections_fail (e : NodeError) :
    n.HeedsRejections (.fail e : Dialogue NodeError α) := by
  intro es result hyields e he
  obtain ⟨rfl, -⟩ := Dialogue.yields_fail.1 hyields
  simp at he

theorem heedsRejections_get (n : Node) (path : String) (expected : Wire.Schema) :
    n.HeedsRejections (n.get path expected) := by
  intro es result hyields e he r hr hrejection
  obtain ⟨outcome, rfl, rfl⟩ := yields_get.1 hyields
  obtain rfl := Entry.exchanged.inj (List.mem_singleton.1 he)
  rw [show outcome = .reply r from hr]
  exact ending_rejection n _ expected hrejection

theorem heedsRejections_post (n : Node) (path : String) (body : Wire.Record)
    (expected : Wire.Schema) : n.HeedsRejections (n.post path body expected) := by
  intro es result hyields e he r hr hrejection
  cases hbody : sendable? body with
  | none =>
    obtain ⟨rfl, -⟩ := yields_post_none hbody hyields
    simp at he
  | some text =>
    obtain ⟨outcome, rfl, rfl⟩ := (yields_post hbody).1 hyields
    obtain rfl := Entry.exchanged.inj (List.mem_singleton.1 he)
    rw [show outcome = .reply r from hr]
    exact ending_rejection n _ expected hrejection

theorem heedsRejections_withKeyspace {f : Name → Dialogue NodeError α}
    (h : ∀ keyspace, n.HeedsRejections (f keyspace)) : n.HeedsRejections (n.withKeyspace f) := by
  unfold withKeyspace
  split
  · exact h _
  · exact heedsRejections_fail _

/-- **Every call heeds rejections.** -/
theorem make_heedsRejections (n : Node) (call : Call) : n.HeedsRejections (n.make call) := by
  cases call with
  | login username password => exact ((heedsRejections_post n _ _ _).map _).map _
  | selectKeyspace keyspace => exact ((heedsRejections_get n _ _).map _).map _
  | describeRing keyspace => exact ((heedsRejections_get n _ _).map _).map _
  | describeSizedSplits table start stop keysPerSplit =>
    exact (heedsRejections_withKeyspace fun _ => (heedsRejections_post n _ _ _).map _).map _
  | describeSplitTokens table start stop keysPerSplit =>
    exact (heedsRejections_withKeyspace fun _ => (heedsRejections_post n _ _ _).map _).map _

end HeedsRejections

end Node

end RingScan
