import Docblock.Tree.Outline
import Docblock.Tree.Visit

/-! Functions, methods and parameters as they are called. -/
namespace Docblock.Docs

open Docblock.Tree (AccessError)

/-- Texts with commas between them; every item is to be a text. -/
def joinTexts (ts : List Tree) : Except AccessError String := do
  let ss ← ts.mapM fun t => match t with
    | .text s => .ok s
    | _ => .error .wrongForm
  return Tree.commaSeparated ss

mutual
/-- The signature of a function, a method or a parameter, and the text of a default value. A
parameter shows its type, its reference sign and its default where they are set. -/
def signature : Tree → Except AccessError Tree
  | .node .constant _ [name] => .ok name
  | .node .array _ [nodes] => do
    return .text ("array(" ++ (← joinTexts (← signatureItems nodes)) ++ ")")
  | .node .formalParameter _ [name, value, isRef, type] => do
    let head ← if type.truthy then pure ((← signature type).display ++ " ") else pure ""
    let sign := if isRef.truthy then "&" else ""
    let tail ← if value.truthy then pure (" = " ++ (← signature value).display) else pure ""
    return .text (head ++ sign ++ name.display ++ tail)
  | .node .function _ [name, params, _, _] => call name params
  | .node .method _ [name, _, params, _, _] => call name params
  | t => .ok (.text t.display)

/-- A name with its parameters, or alone if there is no list of them. -/
def call (name : Tree) : Tree → Except AccessError Tree
  | .null => .ok name
  | .list ts => do
    return .text (name.display ++ "(" ++ (← joinTexts (← signatureAll ts)) ++ ")")
  | .text s => do
    return .text (name.display ++ "(" ++
      (← joinTexts (s.toList.map fun c => .text (String.singleton c))) ++ ")")
  | _ => .error .wrongForm

def signatureItems : Tree → Except AccessError (List Tree)
  | .list ts => signatureAll ts
  | .text s => .ok (s.toList.map fun c => .text (String.singleton c))
  | _ => .error .wrongForm

def signatureAll : List Tree → Except AccessError (List Tree)
  | [] => .ok []
  | t :: ts => do
    let s ← signature t
    return s :: (← signatureAll ts)
end

end Docblock.Docs
