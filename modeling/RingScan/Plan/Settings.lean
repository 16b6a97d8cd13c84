import RingScan.Config.Setting

set_option autoImplicit false

/-! # The settings of a planning pass

Everything that can be set before a pass. -/

namespace RingScan.Plan.Settings

open Config (Setting Entry)

/-- A text that need not be set. -/
abbrev OptionalText := Setting (Option String)

/-- The keyspace. -/
def keyspace : OptionalText :=
  ⟨"input.keyspace", "The keyspace whose token ring is planned.", none⟩

/-- The table. -/
def table : OptionalText :=
  ⟨"input.table", "The table (column family) the splits are computed for.", none⟩

/-- The seeds, with commas between them. -/
def initialAddress : OptionalText :=
  ⟨"input.initial-address", "Comma separated seed addresses used to fetch the ring topology.", none⟩

/-- The port of all nodes. -/
def rpcPort : Setting Int := ⟨"input.rpc-port", "Port of the node query API.", 9160⟩

/-- The name of the partitioner. -/
def partitioner : OptionalText :=
  ⟨"input.partitioner",
    "Partitioner of the cluster, either a short name such as 'murmur3' or the " ++
      "store's partitioner class name.", none⟩

/-- The number of rows that a split should have. -/
def splitSize : Setting Int :=
  ⟨"input.split-size", "Requested number of rows per split.", 64 * 1024⟩

/-- The number of workers. -/
def maxThreads : Setting Int :=
  ⟨"input.max-threads",
    "Number of threads used to query replicas for split boundaries. " ++
      "0 starts one thread per planning task.", 0⟩

/-- The number of failures that are made good. -/
def maxRetries : Setting Int :=
  ⟨"input.max-retries",
    "Number of failed planning tasks resubmitted before planning gives up.", 3⟩

/-- The first key. -/
def startKey : OptionalText :=
  ⟨"input.key-range.start-key",
    "Restricts planning to keys from this key on. Needs an order preserving partitioner.", none⟩

/-- The last key. -/
def endKey : OptionalText :=
  ⟨"input.key-range.end-key",
    "Upper key bound of the restriction; the restriction runs to the end of the ring if unset.",
    none⟩

/-- A bound that cannot be used. -/
def startToken : OptionalText :=
  ⟨"input.key-range.start-token",
    "Raw token bound. Not supported together with a key restriction.", none⟩

/-- Another bound that cannot be used. -/
def endToken : OptionalText :=
  ⟨"input.key-range.end-token",
    "Raw token bound. Not supported together with a key restriction.", none⟩

/-- The user. -/
def username : OptionalText :=
  ⟨"input.keyspace.username", "User to log in with on every opened connection.", none⟩

/-- The password of the user. -/
def password : OptionalText := ⟨"input.keyspace.password", "Password of the login user.", none⟩

/-- How long a request may take. -/
def requestTimeout : Setting Duration :=
  ⟨"input.request-timeout", "Read timeout of a single node request.", .seconds 180⟩

/-- How long it may take to connect. -/
def connectTimeout : Setting Duration :=
  ⟨"input.connect-timeout", "Timeout for opening a connection to a node.", .seconds 10⟩

/-- All settings. -/
def all : List Entry :=
  [keyspace.entry, table.entry, initialAddress.entry, rpcPort.entry, partitioner.entry,
    splitSize.entry, maxThreads.entry, maxRetries.entry, startKey.entry, endKey.entry,
    startToken.entry, endToken.entry, username.entry, password.entry, requestTimeout.entry,
    connectTimeout.entry]

/-- All settings in the order of their names. -/
def sorted : List Entry := all.mergeSort fun a b => a.key.isAtMost b.key

end RingScan.Plan.Settings
