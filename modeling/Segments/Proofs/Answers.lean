import Segments.Http.Api
import Segments.Proofs.BodyGrammar
import Segments.Proofs.Conjunction
import Segments.Proofs.Sessions

namespace Segments

open Catalog Sync

namespace Http

/-- The request asks for the records of which all these texts hold: it states JSON as the type of its
body, and the body is not too long and begins with a list of the texts. -/
def Request.Asks (r : Request) (texts : List String) : Prop :=
  r.contentType.any MediaType.isJson = true ∧ r.body.length ≤ maxBody ∧
    ∃ front rest, r.body = front ++ rest ∧ Body.Payload front (some texts)

/-- The body is looked at only after its type and its length. -/
theorem Request.conditions_eq_ok {r : Request} {cs : Option (List String)} :
    r.conditions = .ok cs ↔ r.contentType.any MediaType.isJson = true ∧ r.body.length ≤ maxBody ∧
      ∃ front rest, r.body = front ++ rest ∧ Body.Payload front cs := by
  have hread : (∃ front rest, r.body = front ++ rest ∧ Body.Payload front cs) ↔
      Body.read r.body = .ok cs := by
    rw [Body.read_eq_ok]
    exact exists_congr fun front => exists_congr fun rest => and_comm
  rw [hread]
  unfold Request.conditions
  cases htype : r.contentType.any MediaType.isJson with
  | false => simp
  | true =>
    by_cases hlength : r.body.length > maxBody
    · simp [hlength, Nat.not_le.mpr hlength]
    · cases hbody : Body.read r.body with
      | ok other => simp [hlength, Nat.not_lt.mp hlength]
      | error fault => cases fault <;> simp [hlength]

/-- A body has one reading, so that a request asks for one list at most. -/
theorem Request.Asks.unique {r : Request} {texts others : List String} (h : r.Asks texts)
    (h' : r.Asks others) : texts = others := by
  have heq := (conditions_eq_ok.mpr h).symm.trans (conditions_eq_ok.mpr h')
  exact Option.some.inj (Except.ok.inj heq)

namespace Api

end Api

end Http

end Segments
