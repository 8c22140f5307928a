import Docblock.Tree.Basic

/-! Equality of trees, which leaves out the lines. -/
namespace Docblock.Tree

/-- Numbers, of which the truth values are two. -/
inductive Number where
  | int (n : Int)
  | float (x : Double)

def number? : Tree → Option Number
  | .bool b => some (.int b.toInt)
  | .int n => some (.int n)
  | .float x => some (.float x)
  | _ => none

/-- Numbers are equal by value, whatever their form. -/
def Number.same : Number → Number → Bool
  | .int m, .int n => m == n
  | .int m, .float y => y.sameInt m
  | .float x, .int n => x.sameInt n
  | .float x, .float y => x.same y

def sameNumber (t u : Tree) : Bool :=
  match t.number?, u.number? with
  | some x, some y => x.same y
  | _, _ => false

mutual
/-- Nodes are equal if they are of one kind and their fields are. -/
def same : Tree → Tree → Bool
  | .null, .null => true
  | .text s, .text t => s == t
  | .list ts, .list us => sameAll ts us
  | .node k _ ts, .node k' _ us => k == k' && sameAll ts us
  | t, u => sameNumber t u

def sameAll : List Tree → List Tree → Bool
  | [], [] => true
  | t :: ts, u :: us => t.same u && sameAll ts us
  | _, _ => false
end

end Docblock.Tree
