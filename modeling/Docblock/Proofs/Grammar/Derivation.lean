import Docblock.Grammar.Precedence
import Docblock.Proofs.Result

/-! Derivations of the grammar, with the values that the actions give them from the bottom up. -/
namespace Docblock.Grammar

/-- Derivation trees for some symbols in order: a token for its kind, and a production above the
trees of its right side for its left side. -/
inductive Forest : List Symbol → Type
  | nil : Forest []
  | token (t : Token) {ss : List Symbol} (rest : Forest ss) : Forest (.t t.kind :: ss)
  | node (p : Production) (hp : p ∈ productions) (children : Forest p.rhs) {ss : List Symbol}
      (rest : Forest ss) : Forest (.n p.lhs :: ss)

namespace Forest

variable {file : Option String} {s : Symbol} {ss : List Symbol}

/-- The tokens at the leaves. -/
def yield : {ss : List Symbol} → Forest ss → List Token
  | _, nil => []
  | _, token t rest => t :: rest.yield
  | _, node _ _ children rest => children.yield ++ rest.yield

/-- The number of productions. -/
def size : {ss : List Symbol} → Forest ss → Nat
  | _, nil => 0
  | _, token _ rest => rest.size
  | _, node _ _ children rest => children.size + 1 + rest.size

/-- The values of the symbols: a token stands for itself, and the action of a production is
applied to the values of its right side. -/
def value (file : Option String) : {ss : List Symbol} → Forest ss → Except Fault (Values ss)
  | _, nil => .ok ()
  | _, token t rest => (rest.value file).map (t, ·)
  | _, node p _ children rest =>
    match children.value file with
    | .error e => .error e
    | .ok vs =>
      match (p.action file).apply vs with
      | .error e => .error e
      | .ok v => (rest.value file).map (v, ·)

/-- A tree before a forest. -/
def cons : {s : Symbol} → {ss : List Symbol} → Forest [s] → Forest ss → Forest (s :: ss)
  | _, _, token t nil, rest => token t rest
  | _, _, node p hp children nil, rest => node p hp children rest

theorem yield_cons (tree : Forest [s]) (rest : Forest ss) :
    (cons tree rest).yield = tree.yield ++ rest.yield := by
  match s, tree with
  | _, token t nil => rfl
  | _, node p hp children nil => simp [cons, yield]

theorem size_cons (tree : Forest [s]) (rest : Forest ss) :
    (cons tree rest).size = tree.size + rest.size := by
  match s, tree with
  | _, token t nil => simp [cons, size]
  | _, node p hp children nil => simp [cons, size]

theorem value_cons {tree : Forest [s]} {rest : Forest ss} {v : s.Value} {vs : Values ss}
    (ht : tree.value file = .ok (v, ())) (hr : rest.value file = .ok vs) :
    (cons tree rest).value file = .ok (v, vs) := by
  match s, tree with
  | _, token t nil =>
    cases ht
    simp [cons, value, hr, Except.map]
  | _, node p hp children nil =>
    simp only [value] at ht
    split at ht
    · cases ht
    · rename_i hc
      split at ht
      · cases ht
      · rename_i ha
        cases ht
        simp [cons, value, hc, ha, hr, Except.map]

end Forest

/-- A derivation from a nonterminal. -/
abbrev Derivation (v : Nonterminal) : Type := Forest [.n v]

/-- What a derivation evaluates to. -/
def Derivation.result {v : Nonterminal} (d : Derivation v) (file : Option String) :
    Except Fault v.Value :=
  (d.value file).map (·.1)

end Docblock.Grammar
