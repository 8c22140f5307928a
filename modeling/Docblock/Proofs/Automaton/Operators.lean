import Docblock.Proofs.Automaton.Namespace
import Docblock.Proofs.Grammar.Climbing

/-! Variables with operators between them are read into the grouping that climbing gives them. -/
namespace Docblock.Automaton

open Token Grammar

variable {Reader : Type} {file : Option String} {below stack : List Frame} {s : Stream Reader}
  {r : Reader} {tail rest : Tail} {g g' : Grouping} {op v : Token} {n low : Nat}

/-- Where an operand stands: first in a statement, or behind an operator. -/
inductive Place where
  | first
  | behind (op : Kind)

namespace Place

/-- The state before an operand. -/
def before : Place → Nat
  | first => gathering
  | behind op => State.firstOperator + binaryOperators.idxOf op

/-- The state after an operand. -/
def after : Place → Nat
  | first => State.expr
  | behind op => State.firstOperation + binaryOperators.idxOf op

/-- The lowest level of the operators that wait for no other one at a place. -/
def least : Place → Nat
  | first => 0
  | behind op => (precedence op).level + 1

def all : List Place := first :: binaryOperators.map behind

theorem mem_all {op : Kind} (h : op ∈ binaryOperators) : behind op ∈ all :=
  List.mem_cons_of_mem _ (List.mem_map_of_mem h)

end Place

/-- The states that a variable goes through, each with the production that leads out of it. -/
def variableStates : List (Nat × Nat) :=
  [(State.var, Reduction.compoundVar), (State.compoundVar, Reduction.referenceVar),
    (State.referenceVar, Reduction.indirectVar), (State.indirectVar, Reduction.baseVar),
    (State.baseVar, Reduction.baseWithCalls), (State.baseWithCalls, Reduction.varExpr),
    (State.varExpr, Reduction.exprVar)]

/-- The nonterminals of a variable before it is an expression, with the states behind them. -/
def variableEdges : List (Nonterminal × Nat) :=
  [(.compoundVar, State.compoundVar), (.referenceVar, State.referenceVar),
    (.indirectVar, State.indirectVar), (.baseVar, State.baseVar),
    (.baseWithCalls, State.baseWithCalls), (.varExpr, State.varExpr)]

/-- What can follow an operand. -/
def operandEnds : List Kind := .semi :: binaryOperators

theorem operand_edges : ∀ pl ∈ Place.all, actionAt pl.before .var = .shift State.var ∧
    target? pl.before (.n .expr) = some pl.after ∧
    ∀ e ∈ variableEdges, target? pl.before (.n e.1) = some e.2 := by
  decide

theorem operand_reductions : ∀ k ∈ operandEnds, ∀ e ∈ variableStates,
    actionAt e.1 k = .reduce e.2 := by
  decide

/-- An operator is shifted, or the operation before it is reduced, or neither, by their levels. -/
theorem operator_actions :
    (∀ pl ∈ Place.all, ∀ k ∈ binaryOperators, pl.least ≤ (precedence k).level →
      actionAt pl.after k = .shift (Place.behind k).before) ∧
    ∀ op ∈ binaryOperators, (precedence op).associativity ≠ .right ∧
      actionAt (Place.behind op).after .semi =
        .reduce (Reduction.firstOperation + binaryOperators.idxOf op) ∧
      ∀ k ∈ binaryOperators,
        ((precedence k).level < (precedence op).level ∨
          (precedence k).level = (precedence op).level ∧ (precedence op).associativity = .left →
          actionAt (Place.behind op).after k =
            .reduce (Reduction.firstOperation + binaryOperators.idxOf op)) ∧
        ((precedence op).associativity = .none ∧ (precedence k).level = (precedence op).level →
          actionAt (Place.behind op).after k = .reject) := by
  decide +kernel

/-- A production with one symbol on its right side. -/
theorem unit_step {q q' p : Nat} {sym : Symbol} {lhs : Nonterminal} {x : sym.Value}
    {f : sym.Value → lhs.Value} (hp : productions[p]? = some (rule lhs [sym] f))
    (h : actionBefore q s = .reduce p) (hq : target? (stateOf below) (.n lhs) = some q') :
    Step file (⟨q, sym, x⟩ :: below) s (⟨q', .n lhs, f x⟩ :: below) s := by
  have htake : take [sym] (⟨q, sym, x⟩ :: below) = some ((x, ()), below) := by simp [take]
  exact .reduce h (reduce_eq hp htake rfl hq)

set_option maxRecDepth 4000 in
/-- The productions that a variable goes through, in order. -/
theorem variable_productions :
    productions[Reduction.compoundVar]? =
      some (rule .compoundVar [.t .var] fun v => node v.line .var [.text v.text]) ∧
    productions[Reduction.referenceVar]? = some (rule .referenceVar [.n .compoundVar] fun t => t) ∧
    productions[Reduction.indirectVar]? = some (rule .indirectVar [.n .referenceVar] fun t => t) ∧
    productions[Reduction.baseVar]? = some (rule .baseVar [.n .indirectVar] fun t => t) ∧
    productions[Reduction.baseWithCalls]? = some (rule .baseWithCalls [.n .baseVar] fun t => t) ∧
    productions[Reduction.varExpr]? = some (rule .varExpr [.n .baseWithCalls] fun t => t) ∧
    productions[Reduction.exprVar]? = some (rule .expr [.n .varExpr] fun v => v) :=
  ⟨rfl, rfl, rfl, rfl, rfl, rfl, rfl⟩

/-- A stream that goes on behind an operand. -/
def EndsOperand (s : Stream Reader) : Prop := ∃ t r rest, s = .cons t r rest ∧ t.kind ∈ operandEnds

/-- A variable is read into an expression. -/
theorem operand_steps {pl : Place} (hpl : pl ∈ Place.all) (hb : stateOf below = pl.before)
    (hv : v.kind = .var) (hs : EndsOperand s) :
    ∃ n, Steps file n below (.cons v r s)
      (⟨pl.after, .n .expr, (Grouping.operand v).tree⟩ :: below) s := by
  obtain ⟨t, r', rest, rfl, hk⟩ := hs
  obtain ⟨hshift, hexpr, hedges⟩ := operand_edges pl hpl
  rw [← hb] at hshift hexpr hedges
  have hreduce := operand_reductions t.kind hk
  simp only [variableStates, variableEdges, List.forall_mem_cons] at hreduce hedges
  obtain ⟨h₁, h₂, h₃, h₄, h₅, h₆, h₇, -⟩ := hreduce
  obtain ⟨e₁, e₂, e₃, e₄, e₅, e₆, -⟩ := hedges
  obtain ⟨p₁, p₂, p₃, p₄, p₅, p₆, p₇⟩ := variable_productions
  obtain ⟨k, text, line, pos⟩ := v
  cases hv
  exact ⟨8, .step (.step (.step (.step (.step (.step (.step (.step .refl (.shift hshift))
    (unit_step p₁ h₁ e₁)) (unit_step p₂ h₂ e₂)) (unit_step p₃ h₃ e₃)) (unit_step p₄ h₄ e₄))
    (unit_step p₅ h₅ e₅)) (unit_step p₆ h₆ e₆)) (unit_step p₇ h₇ hexpr)⟩

def binaryRule (op : Kind) : Production :=
  rule .expr [.n .expr, .t op, .n .expr] fun l o r =>
    node o.line .binaryOp [.text (lower o.text), l, r]

set_option maxRecDepth 4000 in
theorem production_binary : ∀ k ∈ binaryOperators,
    productions[Reduction.firstOperation + binaryOperators.idxOf k]? = some (binaryRule k) := by
  simp only [binaryOperators, List.forall_mem_cons]
  repeat' apply And.intro
  all_goals first
    | rfl
    | simp

/-- An operator behind its left side, at a place above a stack. -/
def halfway (pl : Place) (op : Token) (left : Grouping) (below : List Frame) : List Frame :=
  ⟨(Place.behind op.kind).before, .t op.kind, op⟩ :: ⟨pl.after, .n .expr, left.tree⟩ :: below

theorem stateOf_halfway (pl : Place) (op : Token) (left : Grouping) (below : List Frame) :
    stateOf (halfway pl op left below) = (Place.behind op.kind).before := rfl

/-- An operator and the operand behind it are read. -/
theorem operator_steps (file : Option String) (r : Reader) (g : Grouping) (below : List Frame)
    {pl : Place} (hpl : pl ∈ Place.all) (hop : op.kind ∈ binaryOperators) (hv : v.kind = .var)
    (hlevel : pl.least ≤ level op) (hs : EndsOperand s) :
    ∃ n, Steps file n (⟨pl.after, .n .expr, g.tree⟩ :: below) (.cons op r (.cons v r s))
      (⟨(Place.behind op.kind).after, .n .expr, (Grouping.operand v).tree⟩ ::
        halfway pl op g below) s := by
  have hshift : Step file (⟨pl.after, .n .expr, g.tree⟩ :: below) (.cons op r (.cons v r s))
      (halfway pl op g below) (.cons v r s) :=
    .shift (operator_actions.1 pl hpl op.kind hop hlevel)
  obtain ⟨n, hn⟩ := operand_steps (Place.mem_all hop) (stateOf_halfway pl op g below) hv hs
  exact ⟨1 + n, (Steps.step .refl hshift).trans hn⟩

/-- An operation is made out of its two sides. -/
theorem operation_step (file : Option String) (g right : Grouping) {pl : Place}
    (hpl : pl ∈ Place.all) (hb : stateOf below = pl.before) (hop : op.kind ∈ binaryOperators)
    (h : actionBefore (Place.behind op.kind).after s =
      .reduce (Reduction.firstOperation + binaryOperators.idxOf op.kind)) :
    Step file (⟨(Place.behind op.kind).after, .n .expr, right.tree⟩ :: halfway pl op g below) s
      (⟨pl.after, .n .expr, (Grouping.operation op g right).tree⟩ :: below) s := by
  have htarget := (operand_edges pl hpl).2.1
  rw [← hb] at htarget
  have htake : take [.n .expr, .t op.kind, .n .expr]
      (⟨(Place.behind op.kind).after, .n .expr, right.tree⟩ :: halfway pl op g below) =
        some ((g.tree, op, right.tree, ()), below) := by
    simp [halfway, take]
  exact .reduce h (reduce_eq (production_binary _ hop) htake rfl htarget)

theorem rightLevel_operator (hop : op.kind ∈ binaryOperators) :
    (Place.behind op.kind).least = rightLevel op := by
  have hright := (operator_actions.2 op.kind hop).1
  rw [rightLevel, associativity]
  split
  · contradiction
  · rfl

/-- Some operators and operands, and then the end of the statement. -/
def closed (semi : Token) (r : Reader) (tail : Tail) : Stream Reader :=
  (Stream.cons semi r (.finished r)).prepend r tail.tokens

/-- Operators with variables behind them. -/
def Infix (tail : Tail) : Prop := ∀ p ∈ tail, p.1.kind ∈ binaryOperators ∧ p.2.kind = .var

instance (tail : Tail) : Decidable (Infix tail) := inferInstanceAs (Decidable (∀ p ∈ tail, _))

theorem endsOperand_closed (r : Reader) {semi : Token} (hsemi : semi.kind = .semi)
    (ht : Infix tail) : EndsOperand (closed semi r tail) := by
  cases tail with
  | nil =>
    refine ⟨semi, r, .finished r, rfl, ?_⟩
    rw [hsemi]
    decide
  | cons p tail => exact ⟨p.1, r, _, rfl, List.mem_cons_of_mem _ (ht p List.mem_cons_self).1⟩

/-- Behind the right side of an operator, its operation is made, unless the next operator clashes
with it. -/
theorem operation_action (r : Reader) {semi : Token} (hsemi : semi.kind = .semi)
    (hop : op.kind ∈ binaryOperators) (ht : Infix rest)
    (hlast : ∀ p ∈ rest.head?, level p.1 < rightLevel op) (hc : clash? op rest = none) :
    actionBefore (Place.behind op.kind).after (closed semi r rest) =
      .reduce (Reduction.firstOperation + binaryOperators.idxOf op.kind) := by
  obtain ⟨-, hend, hactions⟩ := operator_actions.2 op.kind hop
  cases rest with
  | nil => exact (congrArg (actionAt _) hsemi).trans hend
  | cons p rest =>
    obtain ⟨next, w⟩ := p
    have hfirst := groupsFirst_of_clash? (hlast _ rfl) hc
    exact (hactions next.kind (ht _ List.mem_cons_self).1).1 hfirst

/-- What reading leads to: the tree of a grouping above a stack, or an operator that does not
fit. -/
def LeadsTo (file : Option String) (semi : Token) (r : Reader) (pl : Place)
    (below stack : List Frame) (s : Stream Reader) : Except Token (Grouping × Tail) → Prop
  | .ok (g, rest) => ∃ n, Steps file n stack s (⟨pl.after, .n .expr, g.tree⟩ :: below)
      (closed semi r rest)
  | .error e => ∃ n stack' rest, Steps file n stack s stack' (.cons e r rest) ∧
      actionAt (stateOf stack') e.kind = .reject

theorem LeadsTo.of_steps {semi : Token} {pl : Place} {stack' : List Frame} {s' : Stream Reader}
    {res : Except Token (Grouping × Tail)} (hn : Steps file n stack s stack' s')
    (h : LeadsTo file semi r pl below stack' s' res) :
    LeadsTo file semi r pl below stack s res := by
  match res, h with
  | .ok (g, rest), ⟨m, hm⟩ => exact ⟨n + m, hn.trans hm⟩
  | .error e, ⟨m, stack, rest, hm, hreject⟩ => exact ⟨n + m, stack, rest, hn.trans hm, hreject⟩

/-- Reading leads to what climbing gives: each operator is read with its right side, and then its
operation is made or the next operator is rejected. -/
theorem climb_leadsTo (file : Option String) (r : Reader) {semi : Token}
    {res : Except Token (Grouping × Tail)} (hsemi : semi.kind = .semi) (h : Climbs low g tail res)
    (ht : Infix tail) {pl : Place} (hpl : pl ∈ Place.all) (hb : stateOf below = pl.before)
    (hlow : pl.least = low) :
    LeadsTo file semi r pl below (⟨pl.after, .n .expr, g.tree⟩ :: below) (closed semi r tail)
      res := by
  induction h generalizing pl below with
  | done | loose => exact ⟨0, .refl⟩
  | @inner low g op v e tail hle hr ih =>
    obtain ⟨⟨hop, hv⟩, htail⟩ := List.forall_mem_cons.mp ht
    obtain ⟨n, hn⟩ := operator_steps file r g below hpl hop hv (hlow ▸ hle)
      (endsOperand_closed r hsemi htail)
    exact (ih htail (Place.mem_all hop) (stateOf_halfway pl op g below)
      (rightLevel_operator hop)).of_steps hn
  | @clash low g right op v e tail mid hle hr hc ih =>
    obtain ⟨⟨hop, hv⟩, htail⟩ := List.forall_mem_cons.mp ht
    obtain ⟨n, hn⟩ := operator_steps file r g below hpl hop hv (hlow ▸ hle)
      (endsOperand_closed r hsemi htail)
    obtain ⟨m, hm⟩ := ih htail (Place.mem_all hop) (stateOf_halfway pl op g below)
      (rightLevel_operator hop)
    obtain ⟨inside, rfl, -⟩ := hr.taken
    cases mid with
    | nil => cases hc
    | cons p mid =>
      simp only [clash?, Option.ite_none_right_eq_some, Option.some.injEq] at hc
      obtain ⟨hclash, rfl⟩ := hc
      have hnext : p.1.kind ∈ binaryOperators := (htail p (by simp)).1
      exact ⟨_, _, _, hn.trans hm,
        ((operator_actions.2 op.kind hop).2.2 p.1.kind hnext).2 hclash⟩
  | @more low g right op v tail mid res hle hr hc _ ihr ihm =>
    obtain ⟨⟨hop, hv⟩, htail⟩ := List.forall_mem_cons.mp ht
    obtain ⟨n, hn⟩ := operator_steps file r g below hpl hop hv (hlow ▸ hle)
      (endsOperand_closed r hsemi htail)
    obtain ⟨m, hm⟩ := ihr htail (Place.mem_all hop) (stateOf_halfway pl op g below)
      (rightLevel_operator hop)
    obtain ⟨inside, rfl, -, -, -, hlast⟩ := hr.taken
    have hmid : Infix mid := (List.forall_mem_append.mp htail).2
    have hmade := operation_step file g right hpl hb hop
      (operation_action r hsemi hop hmid hlast hc)
    exact (ihm hmid hpl hb hlow).of_steps ((hn.trans hm).step hmade)

/-- Where the steps from the start on lead to a token that does not fit, the source is rejected. -/
theorem parse_reject {t : Token} {u : Stream Reader} (h : Steps file n [] s stack (.cons t r u))
    (ha : actionAt (stateOf stack) t.kind = .reject) :
    s.parse file = (.error (.unexpected t), r) := by
  obtain ⟨fuel, hfuel⟩ := Nat.exists_eq_add_of_le (steps_bound h)
  rw [Stream.parse, hfuel, Nat.add_assoc, Nat.add_comm 2 fuel, run_steps _ h]
  simp only [run, ha]

theorem statement_actions : actionAt 0 .var = .reduce Reduction.empty ∧
    actionAt State.blank .var = .reduce Reduction.statementsNone ∧
    actionAt Place.first.after .semi = .shift State.exprSemi ∧
    actionAtEnd State.exprSemi = .reduce Reduction.exprStatement ∧
    actionAtEnd State.statement = .reduce Reduction.topStatement ∧
    actionAtEnd State.topStatement = .reduce Reduction.statementsMore := by
  decide

/-- The variable that a statement starts with is read. -/
theorem first_steps (file : Option String) (r : Reader) (hv : v.kind = .var)
    (hs : EndsOperand s) :
    ∃ n, Steps file n [] (.cons v r s)
      [⟨Place.first.after, .n .expr, (Grouping.operand v).tree⟩, gathered []] s := by
  obtain ⟨hfirst, hblank, -⟩ := statement_actions
  have hstart : Steps file 2 [] (.cons v r s) [gathered []] (.cons v r s) :=
    start_steps ((congrArg (actionAt 0) hv).trans hfirst)
      ((congrArg (actionAt State.blank) hv).trans hblank)
  have hplace : Place.first ∈ Place.all := List.mem_cons_self
  have hgathered : stateOf [gathered []] = Place.first.before := rfl
  obtain ⟨n, hn⟩ := operand_steps hplace hgathered hv hs
  exact ⟨2 + n, hstart.trans hn⟩

/-- An expression with a semicolon is a source of one statement. -/
theorem statement_steps (file : Option String) (r : Reader) {semi : Token}
    (hsemi : semi.kind = .semi) (t : Tree) :
    Steps file 4 [⟨Place.first.after, .n .expr, t⟩, gathered []] (.cons semi r (.finished r))
      [gathered [t]] (.finished r) := by
  obtain ⟨-, -, hshift, hstatement, htop, hsnoc⟩ := statement_actions
  have h₁ : Step file [⟨Place.first.after, .n .expr, t⟩, gathered []]
      (.cons semi r (.finished r))
      [⟨State.exprSemi, .t semi.kind, semi⟩, ⟨Place.first.after, .n .expr, t⟩, gathered []]
      (.finished r) :=
    .shift ((congrArg (actionAt Place.first.after) hsemi).trans hshift)
  have h₂ : Step file
      [⟨State.exprSemi, .t semi.kind, semi⟩, ⟨Place.first.after, .n .expr, t⟩, gathered []]
      (.finished r) [⟨State.statement, .n .statement, t⟩, gathered []] (.finished r) := by
    refine .reduce hstatement ?_
    rw [hsemi]
    rfl
  have h₃ : Step file [⟨State.statement, .n .statement, t⟩, gathered []] (.finished r)
      [⟨State.topStatement, .n .topStatement, t⟩, gathered []] (.finished r) := .reduce htop rfl
  exact (((Steps.refl.step h₁).step h₂).step h₃).step (snoc_step [] hsnoc)

end Docblock.Automaton

namespace Docblock

open Token Grammar Automaton

variable {Reader : Type} {file : Option String} {s : Stream Reader}

/-- A variable, and operators with variables behind them. -/
structure InfixChain where
  first : Token
  tail : Tail
  first_kind : first.kind = .var
  tail_kinds : Infix tail

namespace InfixChain

def tokens (c : InfixChain) : List Token := c.first :: c.tail.tokens

/-- What climbing makes of the chain: the tree of its grouping, or the error at an operator. -/
def climbed (c : InfixChain) : Except ParseError (List Tree) :=
  match climbAll c.first c.tail with
  | .ok g => .ok [g.tree]
  | .error op => .error (.unexpected op)

theorem parse_closed (c : InfixChain) (file : Option String) (r : Reader) {semi : Token}
    (hsemi : semi.kind = .semi) :
    (Stream.cons c.first r (closed semi r c.tail)).parse file = (c.climbed, r) := by
  have hends := endsOperand_closed r hsemi c.tail_kinds
  obtain ⟨n, hn⟩ := first_steps file r c.first_kind hends
  have hplace : Place.first ∈ Place.all := List.mem_cons_self
  have hgathered : stateOf [gathered []] = Place.first.before := rfl
  rw [climbed]
  cases h : climbAll c.first c.tail with
  | ok g =>
    obtain ⟨m, hm⟩ := climb_leadsTo file r hsemi (climbAll_ok h) c.tail_kinds hplace hgathered rfl
    exact parse_ok_iff.mpr ⟨_, (hn.trans hm).trans (statement_steps file r hsemi g.tree)⟩
  | error op =>
    obtain ⟨m, stack, rest, hm, hreject⟩ :=
      climb_leadsTo file r hsemi (climbAll_error h) c.tail_kinds hplace hgathered rfl
    exact parse_reject (hn.trans hm) hreject

/-- Variables with operators between them and a semicolon behind them are read as climbing the
levels of precedence reads them. Where no two operators of a level that does not group would have
to be grouped with each other, the result is the tree of a grouping in which every operation comes
after those that bind tighter, or as tight and from the left; otherwise an operator is rejected. -/
theorem parse_infix (c : InfixChain) {semi : Token} (hsemi : semi.kind = .semi)
    (ht : s.tokens = c.tokens ++ [semi]) (he : s.error? = none) :
    (s.parse file).1 = c.climbed ∧
    (¬ Clashes c.tail.operators → ∃ g : Grouping, (s.parse file).1 = .ok [g.tree] ∧
      g.tokens = c.tokens ∧ g.Grouped) ∧
    ((∃ op, (s.parse file).1 = .error (.unexpected op)) ↔ Clashes c.tail.operators) := by
  have hparse : (s.parse file).1 = c.climbed := by
    have hclosed := congrArg Prod.fst (c.parse_closed file s.final hsemi)
    refine (Stream.parse_congr ?_ ?_).trans hclosed
    · rw [ht, tokens, Stream.tokens, closed, Stream.tokens_prepend]
      rfl
    · rw [he, Stream.error?, closed, Stream.error?_prepend]
      rfl
  rw [hparse, climbed]
  have herror := climbAll_error_iff c.first c.tail
  refine ⟨rfl, fun hno => ?_, ?_⟩
  · cases h : climbAll c.first c.tail with
    | ok g => exact ⟨g, rfl, climbAll_grouped h⟩
    | error op => exact absurd (herror.mp ⟨op, h⟩) hno
  · rw [← herror]
    cases h : climbAll c.first c.tail with
    | ok g => simp
    | error op => simp

/-- A sum with a product in it, compared. -/
def comparison : InfixChain where
  first := ⟨.var, "$a", 1, 6⟩
  tail := [(⟨.plus, "+", 1, 9⟩, ⟨.var, "$b", 1, 11⟩), (⟨.mul, "*", 1, 14⟩, ⟨.var, "$c", 1, 16⟩),
    (⟨.isEqual, "==", 1, 19⟩, ⟨.var, "$d", 1, 22⟩)]
  first_kind := rfl
  tail_kinds := by decide

/-- The product is made first, then the sum. -/
def comparisonGrouping : Grouping :=
  .operation ⟨.isEqual, "==", 1, 19⟩
    (.operation ⟨.plus, "+", 1, 9⟩ (.operand ⟨.var, "$a", 1, 6⟩)
      (.operation ⟨.mul, "*", 1, 14⟩ (.operand ⟨.var, "$b", 1, 11⟩)
        (.operand ⟨.var, "$c", 1, 16⟩)))
    (.operand ⟨.var, "$d", 1, 22⟩)

theorem comparison_tokens :
    (streamOf "<?php $a + $b * $c == $d;").tokens = comparison.tokens ++ [⟨.semi, ";", 1, 24⟩] ∧
    (streamOf "<?php $a + $b * $c == $d;").error? = none := by
  rw [streamOf, String.toList_ofList]
  decide +kernel

theorem parse_infix_comparison :
    ((streamOf "<?php $a + $b * $c == $d;").parse none).1 = comparison.climbed ∧
    ∃ g : Grouping, ((streamOf "<?php $a + $b * $c == $d;").parse none).1 = .ok [g.tree] ∧
      g.tokens = comparison.tokens ∧ g.Grouped := by
  obtain ⟨htokens, herror⟩ := comparison_tokens
  obtain ⟨hclimbed, hgrouped, -⟩ := parse_infix comparison rfl htokens herror
  have hno : comparisonGrouping.Grouped := by decide
  exact ⟨hclimbed, hgrouped hno.not_clashes⟩

end InfixChain
end Docblock
