import Docblock.Grammar.Symbol

/-! Productions, each with the action that gives the value of its left side. -/
namespace Docblock.Grammar

/-- Why an action gives no value. -/
inductive Fault where
  /-- A numeral with a digit that its base lacks. -/
  | badNumeral
  | badEscape
  /-- Escapes are decoded in a text that is not all ASCII. -/
  | notAscii
  /-- The end of the code is declared inside a statement. -/
  | haltInside
  deriving DecidableEq

/-- Functions of the values of some symbols. -/
@[reducible]
def Curried : List Symbol → Type → Type
  | [], α => α
  | s :: ss, α => s.Value → Curried ss α

/-- The values of some symbols. -/
@[reducible]
def Values : List Symbol → Type
  | [] => Unit
  | s :: ss => s.Value × Values ss

def Curried.apply {α : Type} : {ss : List Symbol} → Curried ss α → Values ss → α
  | [], f, _ => f
  | _ :: _, f, (v, vs) => Curried.apply (f v) vs

def Curried.map {α β : Type} (g : α → β) : {ss : List Symbol} → Curried ss α → Curried ss β
  | [], f => g f
  | _ :: _, f => fun v => Curried.map g (f v)

/-- A production. Its action may ask for the name of the file that is read. -/
structure Production where
  lhs : Nonterminal
  rhs : List Symbol
  action : Option String → Curried rhs (Except Fault lhs.Value)

/-- A production whose action always gives a value. -/
def rule (lhs : Nonterminal) (rhs : List Symbol) (f : Curried rhs lhs.Value) : Production :=
  ⟨lhs, rhs, fun _ => Curried.map .ok f⟩

/-- A production whose action may fail. -/
def ruleOrFault (lhs : Nonterminal) (rhs : List Symbol)
    (f : Curried rhs (Except Fault lhs.Value)) : Production :=
  ⟨lhs, rhs, fun _ => f⟩

/-- A node with a line. -/
def node (line : Int) (kind : Tree.Kind) (fields : List Tree) : Tree :=
  .node kind (some line) fields

/-- A text in lower case; it holds no letter beyond ASCII that has one. -/
def lower (s : String) : String := s.map Char.toLower

/-- A list with one more at its end. -/
def snoc {α : Type} (xs : List α) (x : α) : List α := xs ++ [x]

def one {α : Type} (x : α) : List α := [x]

/-- One item or more with commas between them. -/
def commaRules (lhs item : Nonterminal) (add : lhs.Value → item.Value → lhs.Value)
    (first : item.Value → lhs.Value) : List Production := [
  rule lhs [.n lhs, .t .comma, .n item] fun xs _ x => add xs x,
  rule lhs [.n item] fun x => first x]

end Docblock.Grammar
