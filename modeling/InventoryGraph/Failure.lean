import InventoryGraph.ObjectId.Code

/-!
# Failures

What a call on the graph can fail with.  Reports and traversals never fail;
failures come from texts that are no ids, from incomplete queries and from
settings that cannot be read.
-/

namespace InventoryGraph

/-- Why a call failed. -/
inductive Failure where
  /-- A text is no object id. -/
  | decode (error : DecodeError)
  /-- A query is incomplete. -/
  | invalidQuery (reason : String)
  /-- Something could not be read or written; `hasCause` says whether another
  error led to it. -/
  | serialization (reason : String) (hasCause : Bool)
  deriving DecidableEq, Repr

namespace Failure

/-- The failure in words. -/
def message : Failure → String
  | .decode error => "Decode error: " ++ error.message
  | .invalidQuery reason => "Invalid query: " ++ reason
  | .serialization reason _ => "Serialization error: " ++ reason

/-- Whether another error led to the failure. -/
def hasCause : Failure → Bool
  | .decode _ => true
  | .invalidQuery _ => false
  | .serialization _ hasCause => hasCause

end Failure

end InventoryGraph
