import CellBridge.Call.Candidate
import CellBridge.Heap.Basic

/-!
# Configuration

How the heap numbers and keeps its handles, how results travel by default, and whether candidates
are remembered.
-/

namespace CellBridge

/-- Where the first handle comes from. -/
inductive HandleSeed where
  /-- From the host and the clock, so that handles left over from earlier do not match by chance. -/
  | hostAndClock
  /-- Exactly this value. -/
  | fixed (base : UInt64)
deriving DecidableEq, Inhabited

namespace HandleSeed

/-- The first handle, given the value that host and clock would supply. -/
def base
    (ambient : UInt64) : HandleSeed → UInt64
  | .hostAndClock => ambient
  | .fixed b => b

def dump : HandleSeed → String
  | .hostAndClock => "HostAndClock"
  | .fixed b => "Fixed(" ++ toString b.toNat ++ ")"

end HandleSeed

/-- The settings of the heap. -/
structure HeapConfig where
  /-- How many consecutive reports may miss a handle. -/
  hysteresis : UInt32 := 3
  seed : HandleSeed := .hostAndClock
deriving DecidableEq, Inhabited

namespace HeapConfig

def newHeap
    (c : HeapConfig)
    (ambient : UInt64) : Heap :=
  Heap.empty (c.seed.base ambient) c.hysteresis

def dump
    (c : HeapConfig) : String :=
  "HeapConfig \x7b hysteresis: " ++ toString c.hysteresis.toNat ++ ", seed: " ++ c.seed.dump ++
    " \x7d"

end HeapConfig

/-- The settings of a bridge. -/
structure BridgeConfig where
  heap : HeapConfig := {}
  /-- The mode of calls that name none. -/
  defaultResultMode : ResultMode := .simplest
  /-- Are the candidates of a call remembered? -/
  cacheCandidates : Bool := true
deriving DecidableEq, Inhabited

namespace BridgeConfig

def dump
    (c : BridgeConfig) : String :=
  "BridgeConfig \x7b heap: " ++ c.heap.dump ++ ", default_result_mode: " ++
    c.defaultResultMode.label ++ ", cache_candidates: " ++
    Store.boolText c.cacheCandidates ++ " \x7d"

end BridgeConfig
end CellBridge
