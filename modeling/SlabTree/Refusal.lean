import SlabTree.Host

/-!
# Refusals

A refusal is the answer of an operation that was not carried out.  Each cause
has its own constructor; the wording is in one place.
-/

namespace SlabTree

/-- What is wrong with the parameters of an arena or a tree. -/
inductive ConfigError
  | zeroElementSize
  | zeroCapacity
  | addressSpaceOverflow
  | zeroMaxNodes
  | maxNodesTooLarge
  | zeroNodeSize
  | zeroKeySize
  | keyExceedsNode
  deriving DecidableEq, Repr

/-- The words for a configuration error. -/
def ConfigError.message : ConfigError → String
  | .zeroElementSize => "arena element size must be non-zero"
  | .zeroCapacity => "arena capacity must be non-zero"
  | .addressSpaceOverflow => "arena size overflows the address space"
  | .zeroMaxNodes => "max_nodes must be non-zero"
  | .maxNodesTooLarge => "max_nodes must be below u32::MAX"
  | .zeroNodeSize => "node_size must be non-zero"
  | .zeroKeySize => "key_size must be non-zero"
  | .keyExceedsNode => "key_size must not exceed node_size"

/-- What is wrong with a buffer handed to an operation. -/
inductive ArgumentError
  | recordLength
  | shortKey
  | shortOutput
  deriving DecidableEq, Repr

/-- The words for an argument error. -/
def ArgumentError.message : ArgumentError → String
  | .recordLength => "record length must equal node_size"
  | .shortKey => "key shorter than key_size"
  | .shortOutput => "output buffer shorter than node_size"

/-- Why an operation was refused. -/
inductive Refusal
  | config (error : ConfigError)
  /-- The host does not hand out the memory. -/
  | host (error : HostError)
  | capacityExceeded
  | duplicateKey
  | notFound
  | emptyTree
  | invalidArgument (error : ArgumentError)
  | arenaFull
  | arenaEmpty
  deriving DecidableEq, Repr

/-- The words for a refusal. -/
def Refusal.message : Refusal → String
  | .config error => "invalid configuration: " ++ error.message
  | .host error => "IO: " ++ error.message
  | .capacityExceeded => "tree capacity exceeded"
  | .duplicateKey => "duplicate key"
  | .notFound => "not found"
  | .emptyTree => "tree is empty"
  | .invalidArgument error => "invalid argument: " ++ error.message
  | .arenaFull => "arena is full"
  | .arenaEmpty => "arena is empty"

end SlabTree
