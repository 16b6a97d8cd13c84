import RingScan.Plan.Context
import RingScan.Wire.Messages

set_option autoImplicit false

/-! # Proposals

A pass can also be described value by value instead of by a configuration. The values of such a
proposal are taken as they are, whatever their kinds, and pass the same rules: the draft that a
configuration gives is a proposal, and it is refused as a draft exactly if it is refused as a
proposal. -/

namespace RingScan.Plan

/-- A planning context by its values. -/
structure Proposal where
  identifier? : Option Identifier
  seeds : List Value
  partitioner? : Option Partitioner
  rpcPort : Value
  splitSize : Value
  maxThreads : Value
  maxRetries : Value
  /-- The first key, the last key, and two tokens. -/
  keyRestriction? : Option (List Value)
  username : Value
  password : Value
  connectTimeout : Value
  requestTimeout : Value

namespace Proposal

/-! ## Rules -/

/-- Whether a value is at most a whole number. -/
def isAtMost (v : Value) (n : Int) : Except Fault Bool :=
  match v.relate (.int n) with
  | .incomparable => .error .mismatch
  | c => .ok (c == .ordered .lt || c == .ordered .eq)

/-- Whether a value is below a whole number. -/
def isBelow (v : Value) (n : Int) : Except Fault Bool :=
  match v.relate (.int n) with
  | .incomparable => .error .mismatch
  | c => .ok (c == .ordered .lt)

theorem isAtMost_int (m n : Int) : isAtMost (.int m) n = .ok (decide (m ≤ n)) := by
  rcases Int.lt_trichotomy m n with h | h | h
  · simp [isAtMost, Value.relate_int, Std.compare_eq_lt.2 h, Int.le_of_lt h]
  · simp [isAtMost, Value.relate_int, h]
  · simp [isAtMost, Value.relate_int, Std.compare_eq_gt.2 h, Int.not_le.2 h]

theorem isBelow_int (m n : Int) : isBelow (.int m) n = .ok (decide (m < n)) := by
  rcases Int.lt_trichotomy m n with h | h | h
  · simp [isBelow, Value.relate_int, Std.compare_eq_lt.2 h, h]
  · simp [isBelow, Value.relate_int, h]
  · simp [isBelow, Value.relate_int, Std.compare_eq_gt.2 h, Int.not_lt.2 (Int.le_of_lt h)]

/-- A rule for a value: what breaks it, and the error if it is broken. -/
def demand (broken : Except Fault Bool) (e : ConfigError) : Except SetupError Unit :=
  match broken with
  | .ok true => .error (.configuration e)
  | .ok false => .ok ()
  | .error f => .error (.fault f)

/-- The rules in their order. -/
def check (p : Proposal) : Except SetupError Unit :=
  if !p.identifier?.any Identifier.isComplete then .error (.configuration .noTable)
  else if p.seeds.isEmpty then .error (.configuration .noSeeds)
  else if p.partitioner?.isNone then .error (.configuration .noPartitioner)
  else do
    demand (isAtMost p.splitSize 0) (.badSplitSize p.splitSize.displayText)
    demand (isBelow p.maxThreads 0) (.badMaxThreads p.maxThreads.displayText)
    demand (isBelow p.maxRetries 0) (.badMaxRetries p.maxRetries.displayText)

/-! ## Reading -/

/-- The names of the values, and the values of those that may be missing. -/
def fields : List Wire.Field :=
  [.required "identifier", .required "seeds", .required "partitioner",
    .optional "rpc_port" (.int Settings.rpcPort.default),
    .optional "split_size" (.int Settings.splitSize.default),
    .optional "max_threads" (.int Settings.maxThreads.default),
    .optional "max_retries" (.int Settings.maxRetries.default),
    .optional "key_restriction" .null, .optional "username" .null, .optional "password" .null,
    .optional "connect_timeout" (.duration Settings.connectTimeout.default),
    .optional "request_timeout" (.duration Settings.requestTimeout.default)]

/-- The values of the name of a table, both of which must be given. -/
def identifierFields : List Wire.Field := [.required "keyspace", .required "table"]

/-- The values of a restriction. -/
def restrictionFields : List Wire.Field :=
  [.optional "startKey" .null, .optional "endKey" .null, .optional "startToken" .null,
    .optional "endToken" .null]

/-- The values in a list, by the fields that they are for; the null value stands for no list. -/
def readList? (fields : List Wire.Field) (v : Value) : Except Fault (Option Wire.Record) :=
  if v.isNull then .ok none
  else
    match v.items with
    | .error f => .error f
    | .ok values => (Wire.Schema.ofValues (fields.map Wire.Field.plain) values).map some

/-- The partitioner that a value names; the null value names none. -/
def readPartitioner? (v : Value) : Except Fault (Option Partitioner) :=
  if v.isNull then .ok none else (Partitioner.ofValue v).map some

/-- All values by their names. Names that are not known are refused. -/
def complete (given : Wire.Record) : Except Fault Wire.Record :=
  if given.all fun m => (fields.map Wire.Field.name).contains m.1 then Wire.fill fields given
  else .error .mismatch

/-- The proposal of values with their names. The values with parts of their own come first. -/
def read (given : Wire.Record) : Except Fault Proposal := do
  let identifier? ← readList? identifierFields (given.value "identifier")
  let partitioner? ← readPartitioner? (given.value "partitioner")
  let restriction? ← readList? restrictionFields (given.value "key_restriction")
  let r ← complete given
  let seeds ← (r.value "seeds").items
  return {
    identifier? := identifier?.map fun i => ⟨i.value "keyspace", i.value "table"⟩
    seeds := seeds
    partitioner? := partitioner?
    rpcPort := r.value "rpc_port"
    splitSize := r.value "split_size"
    maxThreads := r.value "max_threads"
    maxRetries := r.value "max_retries"
    keyRestriction? := restriction?.map (·.map Prod.snd)
    username := r.value "username"
    password := r.value "password"
    connectTimeout := r.value "connect_timeout"
    requestTimeout := r.value "request_timeout" }

end Proposal

/-! ## Drafts as proposals -/

/-- A restriction by its values. -/
def KeyRestriction.values (r : KeyRestriction) : List Value :=
  [r.startKey?, r.endKey?, r.startToken?, r.endToken?].map Value.ofText?

/-- The proposal that a draft is. -/
def Draft.toProposal (d : Draft) : Proposal where
  identifier? := some ⟨.ofText? d.keyspace?, .ofText? d.table?⟩
  seeds := d.seeds.map .str
  partitioner? := some d.partitioner
  rpcPort := .int d.rpcPort
  splitSize := .int d.splitSize
  maxThreads := .int d.maxThreads
  maxRetries := .int d.maxRetries
  keyRestriction? := d.keyRestriction?.map KeyRestriction.values
  username := .ofText? d.username?
  password := .ofText? d.password?
  connectTimeout := .duration d.connectTimeout
  requestTimeout := .duration d.requestTimeout

/-- A draft and the proposal that it is are refused alike: on texts and whole numbers the rules for
    values of any kind say what the rules for drafts say. -/
theorem Draft.check_toProposal (d : Draft) :
    d.toProposal.check = (d.check.map fun _ => ()).mapError .configuration := by
  by_cases hk : d.keyspace?.getD "" = "" <;> by_cases ht : d.table?.getD "" = "" <;>
    by_cases hs : d.seeds = [] <;> by_cases hn : d.splitSize ≤ 0 <;>
    by_cases hm : d.maxThreads < 0 <;> by_cases hr : d.maxRetries < 0 <;>
    simp [Proposal.check, check, toProposal, Identifier.isComplete, Proposal.demand,
      Value.isTruthy_ofText?, Value.displayText_int, Proposal.isAtMost_int, Proposal.isBelow_int,
      Except.map, Bind.bind, Except.bind, *] <;> rfl

end RingScan.Plan
