import RingScan.Text.Percent
import RingScan.Value.Display

set_option autoImplicit false

/-! # The paths of a node

Where the calls of a node are found. Names of keyspaces and tables are encoded, so that they are
single segments whatever is in them. -/

namespace RingScan.Node

/-- The name of a keyspace or a table: a plain text, or the bytes of one. -/
inductive Name where
  | text (s : String)
  | bytes (bs : List UInt8)
  deriving DecidableEq

instance : Coe String Name := ⟨.text⟩

namespace Name

/-- The name that a value is. -/
def ofValue : Value → Except Fault Name
  | .str s => (Text.Surrogate.plain s).map .text
  | .bytes bs => .ok (.bytes bs)
  | _ => .error .mismatch

/-- A name as a value. -/
def toValue : Name → Value
  | .text s => .str (Text.Surrogate.held s)
  | .bytes bs => .bytes bs

/-- A name as a segment. -/
def segment : Name → String
  | .text s => String.ofList (Text.Percent.encode s.toList)
  | .bytes bs => String.ofList (Text.Percent.encodeBytes bs)

end Name

/-- The paths below a common root. -/
structure Paths where
  base : String

namespace Paths

/-- The paths below a root of the first version of the calls. -/
def below (root : String) : Paths :=
  let cs := "/v1/".toList ++ root.toList
  ⟨String.ofList (cs.reverse.dropWhile (· == '/')).reverse⟩

/-- The paths below the usual root. -/
def usual : Paths := below ""

/-- Where users log in. -/
def login (p : Paths) : String := p.base ++ "/login"

/-- Where a keyspace is. -/
def keyspace (p : Paths) (name : Name) : String := p.base ++ "/keyspaces/" ++ name.segment

/-- Where the ring of a keyspace is. -/
def ring (p : Paths) (keyspace : Name) : String := p.keyspace keyspace ++ "/ring"

/-- Where a table is. -/
def table (p : Paths) (keyspace name : Name) : String :=
  p.keyspace keyspace ++ "/tables/" ++ name.segment

/-- Where the parts of a range are asked for, with their sizes. -/
def splits (p : Paths) (keyspace table : Name) : String := p.table keyspace table ++ "/splits"

/-- Where the tokens between the parts of a range are asked for. -/
def splitTokens (p : Paths) (keyspace table : Name) : String :=
  p.table keyspace table ++ "/split-tokens"

end Paths

end RingScan.Node
