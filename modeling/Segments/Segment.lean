import Segments.Store.Access

namespace Segments

open Catalog

namespace Segment

/-- The filters of the texts that are conditions. -/
def filters (texts : List String) : List Filter :=
  (Condition.compile texts).conditions.map Condition.toFilter

/-- The records of a segment. That there is no list at all is an error; an empty one has every
record. -/
def evaluate (access : Access) (store : Store) : Option (List String) → Except Failure (List Record)
  | none => .error (.request "Conditions are required")
  | some texts => access.find store (filters texts)

end Segment

end Segments
