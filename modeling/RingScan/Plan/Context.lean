import RingScan.Plan.Settings
import RingScan.Ring.Partitioner

set_option autoImplicit false

/-! # Planning contexts

What a planning pass is to do, fixed and checked before the first request is sent. -/

namespace RingScan.Plan

/-- The name of a table. What is not known of it is null. -/
structure Identifier where
  keyspace : Value
  table : Value
  deriving DecidableEq

/-- A table in messages. -/
def Identifier.fullName (i : Identifier) : String :=
  i.keyspace.displayText ++ "." ++ i.table.displayText

/-- Whether a table is known. -/
def Identifier.isComplete (i : Identifier) : Bool := i.keyspace.isTruthy && i.table.isTruthy

/-- The keys that a pass is restricted to, as they are configured. -/
structure KeyRestriction where
  startKey? : Option String := none
  endKey? : Option String := none
  startToken? : Option String := none
  endToken? : Option String := none
  deriving DecidableEq

/-- Why a configuration cannot be used. -/
inductive ConfigError where
  | noTable
  | noSeeds
  | noPartitioner
  | badSplitSize (shown : String)
  | badMaxThreads (shown : String)
  | badMaxRetries (shown : String)
  /-- A value is not what its setting asks for. -/
  | badValue (message : String)
  /-- Keys are restricted on a ring where they are not in order. -/
  | unordered (p : Partitioner)
  /-- Tokens are restricted besides the keys. -/
  | tokenBound
  deriving DecidableEq

/-- The message of an error. -/
def ConfigError.message : ConfigError → String
  | .noTable =>
      "You must set the keyspace and table with " ++ Settings.keyspace.key ++ " and " ++
        Settings.table.key
  | .noSeeds =>
      "You must set the initial address to a node with " ++ Settings.initialAddress.key
  | .noPartitioner => "You must set the partitioner with " ++ Settings.partitioner.key
  | .badSplitSize shown => "Split size must be positive, got " ++ shown
  | .badMaxThreads shown => "Max threads must not be negative, got " ++ shown
  | .badMaxRetries shown => "Max retries must not be negative, got " ++ shown
  | .badValue message => "Invalid planning configuration: " ++ message
  | .unordered p =>
      "A key range can only be used with an order preserving partitioner, not " ++ p.className
  | .tokenBound => "Only start and end keys are supported in a key range, not tokens"

/-- What a configuration says about a pass, before it is checked. -/
structure Draft where
  keyspace? : Option String
  table? : Option String
  seeds : List String
  partitioner : Partitioner
  rpcPort : Int
  splitSize : Int
  maxThreads : Int
  maxRetries : Int
  keyRestriction? : Option KeyRestriction
  username? : Option String
  password? : Option String
  connectTimeout : Duration
  requestTimeout : Duration

/-- A planning context. -/
structure Context where
  keyspace : String
  table : String
  seeds : List String
  partitioner : Partitioner
  rpcPort : Int
  splitSize : Nat
  maxThreads : Nat
  maxRetries : Nat
  keyRestriction? : Option KeyRestriction
  username? : Option String
  password? : Option String
  connectTimeout : Duration
  requestTimeout : Duration
  keyspace_ne : keyspace ≠ ""
  table_ne : table ≠ ""
  seeds_ne : seeds ≠ []
  splitSize_pos : 0 < splitSize
  deriving DecidableEq

/-- The table of a context. -/
def Context.identifier (c : Context) : Identifier := ⟨.str c.keyspace, .str c.table⟩

/-- A draft checked, rule by rule. -/
def Draft.check (d : Draft) : Except ConfigError Context :=
  if hk : d.keyspace?.getD "" = "" then .error .noTable
  else if ht : d.table?.getD "" = "" then .error .noTable
  else if hs : d.seeds = [] then .error .noSeeds
  else if hn : d.splitSize ≤ 0 then .error (.badSplitSize (Integer.toText d.splitSize))
  else if d.maxThreads < 0 then .error (.badMaxThreads (Integer.toText d.maxThreads))
  else if d.maxRetries < 0 then .error (.badMaxRetries (Integer.toText d.maxRetries))
  else
    .ok {
      keyspace := d.keyspace?.getD ""
      table := d.table?.getD ""
      seeds := d.seeds
      partitioner := d.partitioner
      rpcPort := d.rpcPort
      splitSize := d.splitSize.toNat
      maxThreads := d.maxThreads.toNat
      maxRetries := d.maxRetries.toNat
      keyRestriction? := d.keyRestriction?
      username? := d.username?
      password? := d.password?
      connectTimeout := d.connectTimeout
      requestTimeout := d.requestTimeout
      keyspace_ne := hk
      table_ne := ht
      seeds_ne := hs
      splitSize_pos := by omega }

/-- The draft that a context came from. -/
def Context.toDraft (c : Context) : Draft where
  keyspace? := some c.keyspace
  table? := some c.table
  seeds := c.seeds
  partitioner := c.partitioner
  rpcPort := c.rpcPort
  splitSize := c.splitSize
  maxThreads := c.maxThreads
  maxRetries := c.maxRetries
  keyRestriction? := c.keyRestriction?
  username? := c.username?
  password? := c.password?
  connectTimeout := c.connectTimeout
  requestTimeout := c.requestTimeout

/-- Every context passes the rules as it is. -/
theorem Draft.check_toDraft (c : Context) : c.toDraft.check = .ok c := by
  have hk := c.keyspace_ne
  have ht := c.table_ne
  have hs := c.seeds_ne
  have hn := c.splitSize_pos
  have nonneg (n : Nat) : ¬ (n : Int) < 0 := by omega
  simp [Draft.check, Context.toDraft, hk, ht, hs, Nat.ne_of_gt hn, nonneg]

/-! ## From a configuration -/

/-- Why there is no context. -/
inductive SetupError where
  | configuration (e : ConfigError)
  | fault (f : Fault)

/-- A setting read from a configuration. -/
def readSetting {α : Type} [Config.SettingType α] (o : Config.Options) (s : Config.Setting α) :
    Except SetupError α :=
  match o.get s with
  | .ok v => .ok v
  | .error .overflow => .error (.fault .overflow)
  | .error e => .error (.configuration (.badValue e.message))

/-- The pieces of a text between commas, without the blanks around them; blank pieces are left
    out. -/
def splitSeeds (addresses : String) : List String :=
  ((addresses.splitOn ",").map Text.stripString).filter fun s => !s.isEmpty

/-- The restriction in a configuration, if one of its settings is set. -/
def readRestriction (o : Config.Options) : Except SetupError (Option KeyRestriction) := do
  let restriction : KeyRestriction := {
    startKey? := ← readSetting o Settings.startKey
    endKey? := ← readSetting o Settings.endKey
    startToken? := ← readSetting o Settings.startToken
    endToken? := ← readSetting o Settings.endToken }
  return if restriction = {} then none else some restriction

/-- The draft in a configuration. -/
def Draft.ofOptions (o : Config.Options) : Except SetupError Draft := do
  let addresses? ← readSetting o Settings.initialAddress
  let name? ← readSetting o Settings.partitioner
  match name? with
  | none => .error (.configuration .noPartitioner)
  | some name =>
      let keyspace? ← readSetting o Settings.keyspace
      let table? ← readSetting o Settings.table
      let partitioner ←
        match Partitioner.ofName name with
        | .ok p => .ok p
        | .error e => .error (.configuration (.badValue e.message))
      let rpcPort ← readSetting o Settings.rpcPort
      let splitSize ← readSetting o Settings.splitSize
      let maxThreads ← readSetting o Settings.maxThreads
      let maxRetries ← readSetting o Settings.maxRetries
      let keyRestriction? ← readRestriction o
      let username? ← readSetting o Settings.username
      let password? ← readSetting o Settings.password
      let connectTimeout ← readSetting o Settings.connectTimeout
      let requestTimeout ← readSetting o Settings.requestTimeout
      return {
        keyspace? := keyspace?
        table? := table?
        seeds := splitSeeds (addresses?.getD "")
        partitioner := partitioner
        rpcPort := rpcPort
        splitSize := splitSize
        maxThreads := maxThreads
        maxRetries := maxRetries
        keyRestriction? := keyRestriction?
        username? := username?
        password? := password?
        connectTimeout := connectTimeout
        requestTimeout := requestTimeout }

/-- The context that a configuration describes. -/
def Context.ofOptions (o : Config.Options) : Except SetupError Context := do
  let draft ← Draft.ofOptions o
  draft.check.mapError .configuration

end RingScan.Plan
