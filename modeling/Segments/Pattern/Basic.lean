import Segments.Pattern.Reader
import Segments.Pattern.Search
import Segments.Pattern.Size

namespace Segments

structure Pattern where
  expr : Pattern.Expr

namespace Pattern

inductive Fault
  | malformed
  | tooLarge
  deriving DecidableEq, Repr

def Fault.message : Fault → String
  | .malformed => "regex parse error:"
  | .tooLarge => "Compiled regex exceeds size limit of 10485760 bytes."

def compile (text : String) : Except Fault Pattern :=
  match (Tree.read? text.toList).bind (Expr.ofTree? .start) with
  | none => .error .malformed
  | some (e, _) => if e.fits then .ok ⟨e⟩ else .error .tooLarge

def isMatch (p : Pattern) (text : String) : Bool :=
  p.expr.found text.toList

end Pattern

end Segments
