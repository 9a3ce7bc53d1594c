import DeclGraph.Progress
import DeclGraph.Store.Staging

/-!
# Runs of a pass

Both passes read a store, stage what they work out and flush once. A run is the outcome with the
store after it; if the flush refuses, nothing has been committed.
-/

namespace DeclGraph

/-- What a pass came to. The activity lists its notes and progress calls in order. -/
structure PassRun (ρ : Type) where
  outcome : Except StoreError ρ
  store : Store
  activity : List Activity

end DeclGraph
