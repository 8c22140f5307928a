import Docblock.Proofs.Grammar.Making
import Docblock.Proofs.Grammar.Reading

/-! Comments, declarations and nodes without a line are neither lost nor doubled: those in the value
of a production are those in the values that it is made of, and what its action adds. -/
namespace Docblock

namespace Tree

variable {t : Tree} {ts us : List Tree} {k : Kind} {line : Option Int} {l : Int}

/-- The kinds of declarations that are read from tokens of their own: functions, and members with
modifiers. -/
def declarationKinds : List Kind := [.function, .method, .classVariables]

/-- A comment, a declaration, or a node without a line. -/
def isMarked : Tree → Bool
  | .node k line _ => k == .comment || declarationKinds.contains k || line.isNone
  | _ => false

theorem isMarked_of_isOf (h : t.isOf declarationKinds = true) : t.isMarked = true := by
  cases t with
  | node k line fs =>
    rw [isOf_node] at h
    simp only [isMarked, h, Bool.or_true, Bool.true_or]
  | null | bool | int | float | text | list => cases h

/-- The marked nodes of a tree. -/
def marked (t : Tree) : Multiset Tree := (t.nodes.filter isMarked : List Tree)

/-- The marked nodes of some trees. -/
def markedIn (ts : List Tree) : Multiset Tree := ((nodesIn ts).filter isMarked : List Tree)

theorem markedIn_nil : markedIn [] = 0 := rfl

theorem markedIn_cons : markedIn (t :: ts) = t.marked + markedIn ts := by
  simp [markedIn, marked, nodesIn]

theorem markedIn_append : markedIn (ts ++ us) = markedIn ts + markedIn us := by
  induction ts with
  | nil => simp [markedIn_nil]
  | cons t ts ih => simp [markedIn_cons, ih, add_assoc]

/-- A node has the marked nodes of its fields, unless it is marked itself. -/
theorem marked_node (hc : k ≠ .comment) (hd : k ∉ declarationKinds) :
    (Tree.node k (some l) ts).marked = markedIn ts := by
  simp [marked, markedIn, nodes, isMarked, hc, hd]

theorem marked_of_isMarked (h : (Tree.node k line ts).isMarked = true) :
    (Tree.node k line ts).marked = {.node k line ts} + markedIn ts := by
  simp [marked, markedIn, nodes, h]

theorem marked_declaration (h : k ∈ declarationKinds) :
    (Tree.node k line ts).marked = {.node k line ts} + markedIn ts :=
  marked_of_isMarked (by simp [isMarked, h])

theorem marked_block : (Tree.node .block none ts).marked = {.node .block none ts} + markedIn ts :=
  marked_of_isMarked rfl

theorem marked_comment (s : String) :
    (Tree.node .comment none [.text s]).marked = {.node .comment none [.text s]} := rfl

theorem marked_list : (Tree.list ts).marked = markedIn ts := rfl

theorem marked_null : Tree.null.marked = 0 := rfl

theorem marked_bool (b : Bool) : (Tree.bool b).marked = 0 := rfl

theorem marked_int (n : Int) : (Tree.int n).marked = 0 := rfl

theorem marked_float (x : Double) : (Tree.float x).marked = 0 := rfl

theorem marked_text (s : String) : (Tree.text s).marked = 0 := rfl

/-- The number of nodes without a line among some nodes. -/
def bareCount (ns : Multiset Tree) : Nat := ns.countP fun n => n.lineless = true

theorem bareCount_zero : bareCount 0 = 0 := rfl

theorem bareCount_add (ns ms : Multiset Tree) :
    bareCount (ns + ms) = bareCount ns + bareCount ms :=
  Multiset.countP_add _ _ _

theorem bareCount_node : bareCount {.node k (some l) ts} = 0 := by
  rw [bareCount, Multiset.countP_eq_zero]
  simp [lineless]

theorem bareCount_block : bareCount {.node .block none ts} = 1 := rfl

theorem bareCount_markedIn : bareCount (markedIn ts) = bareIn ts := by
  rw [bareCount, markedIn, Multiset.coe_countP, List.countP_filter, bareIn]
  refine List.countP_congr fun n _ => ?_
  cases n <;> simp [lineless, isMarked]
  tauto

end Tree

namespace Grammar

open Docblock.Tree

variable {file : Option String} {ss : List Symbol} {v : Nonterminal} {α β : Type}

/-- The node that a token becomes, if it stands for a comment. -/
def noted (k : Token.Kind) (t : Token) : Multiset Tree :=
  match k with
  | .comment | .docComment => {.node .comment none [.text t.text]}
  | _ => 0

/-- The marked nodes of some values, and those that tokens among them become. -/
def marks : (ss : List Symbol) → Values ss → Multiset Tree
  | [], _ => 0
  | .t k :: ss, (t, vs) => noted k t + marks ss vs
  | .n v :: ss, (x, vs) => markedIn (v.trees x) + marks ss vs

/-- The block of the last of some arms. -/
def lastBlock (arms : List Tree) : Multiset Tree :=
  match arms.getLast? with
  | some (.node .elseIf _ [_, .node .block line fs]) => {.node .block line fs}
  | _ => 0

theorem lastBlock_nil : lastBlock [] = 0 := rfl

theorem lastBlock_append (arms : List Tree) (line line' : Option Int) (test : Tree)
    (fs : List Tree) : lastBlock (arms ++ [.node .elseIf line [test, .node .block line' fs]]) =
      {.node .block line' fs} := by
  simp [lastBlock]

/-- The marked node that an action adds for a nonterminal: a declaration, or the block of an arm
behind a colon. -/
def Nonterminal.own : (v : Nonterminal) → v.Value → Multiset Tree
  | .functionDeclaration, t | .classStatement, t => if t.isOf declarationKinds then {t} else 0
  | .colonElseifs, arms => lastBlock arms
  | _, _ => 0

/-- Some tokens are read as a declaration. -/
def Declares (file : Option String) (us : List Token) (n : Tree) : Prop :=
  ReadAs file .functionDeclaration us n ∨ ReadAs file .classStatement us n

/-- What an action adds is a block, or a declaration. -/
theorem ReadAs.mem_own {us : List Token} {x : v.Value} {n : Tree} (h : ReadAs file v us x)
    (hn : n ∈ v.own x) :
    n.isOf [.block] = true ∨ n.isOf declarationKinds = true ∧ Declares file us n := by
  unfold Nonterminal.own at hn
  split at hn
  · split at hn
    · cases Multiset.mem_singleton.mp hn
      exact .inr ⟨‹_›, .inl h⟩
    · cases hn
  · split at hn
    · cases Multiset.mem_singleton.mp hn
      exact .inr ⟨‹_›, .inr h⟩
    · cases hn
  · unfold lastBlock at hn
    split at hn
    · cases Multiset.mem_singleton.mp hn
      exact .inl rfl
    · cases hn
  · cases hn

/-- The number of nodes without a line that an action makes: the block of an arm behind a colon. -/
def Production.makes (p : Production) : Nat :=
  if p.lhs = .colonElseifs ∧ .t .kwElseif ∈ p.rhs then 1 else 0

/-- Whatever formed values a function is given, `Q` holds of the marked nodes in them, together with
those in `sum`, and of its result. -/
def Tallies (Q : Multiset Tree → α → Prop) :
    (ss : List Symbol) → Multiset Tree → Curried ss α → Prop
  | [], sum, f => Q sum f
  | .t k :: ss, sum, f => ∀ t : Token, Tallies Q ss (sum + noted k t) (f t)
  | .n v :: ss, sum, f =>
    ∀ x : v.Value, Formed v x → Tallies Q ss (sum + markedIn (v.trees x)) (f x)

/-- What the value of a production has to do with the marked nodes that its action is given. -/
def Production.Balanced (p : Production) (sum : Multiset Tree) (x : p.lhs.Value) : Prop :=
  markedIn (p.lhs.trees x) = p.lhs.own x + sum ∧ bareCount (p.lhs.own x) = p.makes

/-- An action that gives a value gives one with just the marked nodes that it is given, and its
own. -/
def Production.Conserves (p : Production) : Prop :=
  ∀ file, Tallies (fun sum r => ∀ x, r = .ok x → p.Balanced sum x) p.rhs 0 (p.action file)

theorem Tallies.apply {Q : Multiset Tree → α → Prop} {sum : Multiset Tree} {f : Curried ss α}
    (h : Tallies Q ss sum f) {vs : Values ss} (hv : Holds Formed ss vs) :
    Q (sum + marks ss vs) (f.apply vs) := by
  induction ss generalizing sum with
  | nil =>
    rw [marks, add_zero]
    exact h
  | cons s ss ih =>
    obtain ⟨x, vs⟩ := vs
    cases s with
    | t k =>
      rw [marks, ← add_assoc]
      exact ih (h x) hv
    | n v =>
      rw [marks, ← add_assoc]
      exact ih (h x hv.1) hv.2

theorem Tallies.map {Q : Multiset Tree → β → Prop} {g : α → β} {sum : Multiset Tree}
    {f : Curried ss α} (h : Tallies (fun sum a => Q sum (g a)) ss sum f) :
    Tallies Q ss sum (f.map g) := by
  induction ss generalizing sum with
  | nil => exact h
  | cons s ss ih =>
    cases s with
    | t k => exact fun t => ih (h t)
    | n v => exact fun x hx => ih (h x hx)

theorem Tallies.imp {P Q : Multiset Tree → α → Prop} {sum : Multiset Tree} {f : Curried ss α}
    (h : Tallies P ss sum f) (hi : ∀ sum a, P sum a → Q sum a) : Tallies Q ss sum f := by
  induction ss generalizing sum with
  | nil => exact hi sum f h
  | cons s ss ih =>
    cases s with
    | t k => exact fun t => ih (h t)
    | n v => exact fun x hx => ih (h x hx)

theorem conserves_rule {lhs : Nonterminal} {f : Curried ss lhs.Value}
    (h : Tallies (rule lhs ss f).Balanced ss 0 f) : (rule lhs ss f).Conserves := by
  intro file
  refine Tallies.map (h.imp ?_)
  rintro sum x hx v ⟨⟩
  exact hx

theorem conserves_ruleOrFault {lhs : Nonterminal} {f : Curried ss (Except Fault lhs.Value)}
    (h : Tallies (fun sum r => ∀ x, r = .ok x → (ruleOrFault lhs ss f).Balanced sum x) ss 0 f) :
    (ruleOrFault lhs ss f).Conserves :=
  fun _ => h

theorem marked_indexed {t : Tree} {ds : List Dimension} (h : ∀ d ∈ ds, d.isOffset = true) :
    (indexed t ds).marked = t.marked + markedIn (ds.map Dimension.value) := by
  induction ds generalizing t with
  | nil => simp [indexed, markedIn_nil]
  | cons d ds ih =>
    obtain ⟨hd, hds⟩ := List.forall_mem_cons.mp h
    have hoffset : (node d.line d.kind [t, d.value]).marked = t.marked + d.value.marked := by
      have hfields : markedIn [t, d.value] = t.marked + d.value.marked := by
        simp [markedIn_cons, markedIn_nil]
      obtain hk | hk : d.kind = .arrayOffset ∨ d.kind = .stringOffset := by
        simpa [Dimension.isOffset] using hd
      all_goals
        rw [node, hk, marked_node (by decide) (by decide), hfields]
    rw [indexed, List.foldl_cons, ← indexed, ih hds, hoffset, List.map_cons, markedIn_cons,
      add_assoc]

theorem marked_access {t : Tree} {a : Access} (line : Int)
    (h : ∀ d ∈ a.property.dimensions, d.isOffset = true) :
    (access line t a).marked = t.marked + markedIn a.trees := by
  obtain ⟨⟨name, ds⟩, args⟩ := a
  simp only [access, marked_indexed h, Access.trees, Property.trees]
  cases args with
  | none => simp +decide [node, marked_node, markedIn_cons, markedIn_nil, add_assoc]
  | some args =>
    -- The arguments are put below the indices that stand before them.
    simp +decide [node, marked_node, marked_list, markedIn_append, markedIn_cons, markedIn_nil,
      add_assoc, add_comm]

/-- A chain of properties has the marked nodes of all of them. -/
theorem marked_accesses {t : Tree} (line : Int) (as : List Access)
    (h : ∀ d ∈ as.flatMap (·.property.dimensions), d.isOffset = true) :
    (as.foldl (access line) t).marked = t.marked + markedIn (as.flatMap Access.trees) := by
  induction as generalizing t with
  | nil => simp [markedIn_nil]
  | cons a as ih =>
    rw [List.flatMap_cons, List.forall_mem_append] at h
    rw [List.foldl_cons, ih h.2, marked_access line h.1, List.flatMap_cons, markedIn_append,
      add_assoc]

theorem marked_interpolate (line : Int) (before part : Tree) :
    (interpolate line before part).marked = before.marked + part.marked := by
  simp only [interpolate]
  split <;> simp +decide [node, marked_node, marked_text, markedIn_cons, markedIn_nil]

theorem marked_unescape {s : String} {t : Tree} (h : unescape s = .ok t) : t.marked = 0 := by
  simp only [unescape] at h
  split at h <;> cases h
  rfl

/-- A constant that may name its file. -/
theorem marked_magic (line : Int) (name : String) (file : Option String) :
    (Tree.node .magicConstant (some line) [.text name, optionalText file]).marked = 0 := by
  cases file <;> rfl

theorem conserves_statements :
    ∀ p ∈ topRules ++ innerRules ++ statementRules ++ armRules ++ varListRules,
      p.Conserves := by
  simp only [topRules, innerRules, statementRules, armRules, varListRules, jumpRules, commaRules,
    bodyRules, List.forall_mem_append, List.forall_mem_cons, List.not_mem_nil, false_imp_iff,
    implies_true, and_true]
  repeat' apply And.intro
  all_goals first | apply conserves_rule | apply conserves_ruleOrFault
  all_goals simp +decide only [Tallies, Production.Balanced, Production.makes, rule, ruleOrFault,
    noted, Nonterminal.own, Nonterminal.trees, node, snoc, one, id, catchArm, lastBlock_nil,
    lastBlock_append, markedIn_append, markedIn_cons, markedIn_nil, marked_node, marked_block,
    marked_list, marked_null, marked_bool, marked_text, bareCount_zero, bareCount_block, ne_eq,
    reduceCtorEq, not_false_eq_true, if_true, if_false, add_zero, zero_add, add_assoc,
    false_imp_iff, implies_true, and_true]
  -- What is left is the loop over a list, which has a key or not, and the arm behind a colon.
  · intro w _ e _ _ var _ target _ _ body _
    split <;> simp +decide [marked_node, marked_null, markedIn_cons, markedIn_nil]
  · intro arms _ w _ e _ _ _ ss _
    rw [add_left_comm (marked e), add_left_comm (markedIn arms)]

theorem conserves_declarations :
    ∀ p ∈ functionRules ++ parameterRules ++ classRules ++ memberRules, p.Conserves := by
  simp only [functionRules, parameterRules, classRules, memberRules, nameRules, commaRules,
    List.forall_mem_append, List.forall_mem_cons, List.forall_mem_map, List.not_mem_nil,
    false_imp_iff, implies_true, and_true]
  repeat' apply And.intro
  all_goals apply conserves_rule
  all_goals simp +decide only [Tallies, Production.Balanced, Production.makes, rule, noted,
    Nonterminal.own, Nonterminal.trees, node, snoc, one, formalParameter, classVariable,
    markedIn_append, markedIn_cons, markedIn_nil, marked_node, marked_declaration, marked_list,
    marked_null, marked_bool, marked_text, bareCount_zero, bareCount_node, isOf_node, ne_eq,
    not_false_eq_true, if_true, if_false, add_zero, zero_add, add_assoc, implies_true, and_true]
  -- What is left is the comment among the members of a class.
  rintro t ⟨ht, -⟩
  obtain ⟨line, fs, rfl⟩ := isOf_singleton (ht t (List.mem_singleton.mpr rfl)).2.1
  simp +decide [isOf_node, bareCount_zero]

theorem conserves_expressions :
    ∀ p ∈ exprRules ++ operatorRules ++ arrayRules ++ argumentRules ++ classNameRules ++
      callRules ++ variableRules, p.Conserves := by
  simp only [exprRules, operatorRules, arrayRules, argumentRules, classNameRules, callRules,
    variableRules, nameRules, commaRules, casts, inclusions, assignOperators, binaryOperators,
    unaryOperators, List.forall_mem_append, List.forall_mem_cons, List.forall_mem_map,
    List.not_mem_nil, false_imp_iff, implies_true, and_true]
  repeat' apply And.intro
  all_goals apply conserves_rule
  all_goals simp +decide only [Tallies, Production.Balanced, Production.makes, rule, noted,
    Nonterminal.own, Nonterminal.trees, node, snoc, one, arrayElement, lexicalVar, Access.trees,
    Property.trees, markedIn_append, markedIn_cons, markedIn_nil, marked_node, marked_list,
    marked_null, marked_bool, marked_text, bareCount_zero, List.map_append, List.map_cons,
    List.map_nil, List.flatMap_append, List.flatMap_cons, List.flatMap_nil, List.append_nil,
    Option.getD_some, Option.getD_none, ne_eq, not_false_eq_true, if_false, add_zero, zero_add,
    add_assoc, implies_true, and_true]
  -- What is left are the two chains of properties, which are folds.
  · rintro t - o p ⟨-, hp⟩ ps ⟨-, hps⟩
    have hchain := marked_accesses (t := t) o.line ((p :: ps).map (⟨·, none⟩)) ?_
    · rw [List.foldl_map] at hchain
      rw [hchain, List.flatMap_map]
      simp only [Access.trees, Option.getD_none, List.append_nil, List.flatMap_cons,
        markedIn_append]
      rw [Property.trees, markedIn_cons, add_assoc]
    · simp only [List.flatMap_map, List.flatMap_cons, List.forall_mem_append]
      exact ⟨hp, hps⟩
  · rintro t - o p ⟨-, hp⟩ args - more ⟨-, hmore⟩
    rw [marked_accesses o.line (⟨p, args⟩ :: more)]
    · simp [Access.trees, Property.trees, markedIn_append, markedIn_cons]
    · rw [List.flatMap_cons, List.forall_mem_append]
      exact ⟨hp, hmore⟩

theorem conserves_literals :
    ∀ p ∈ scalarRules ++ staticScalarRules ++ encapsRules, p.Conserves := by
  simp only [scalarRules, staticScalarRules, encapsRules, nameRules, List.forall_mem_append,
    List.forall_mem_cons, List.not_mem_nil, false_imp_iff, implies_true, and_true]
  repeat' apply And.intro
  all_goals first | apply conserves_rule | apply conserves_ruleOrFault | intro file
  all_goals simp +decide only [Tallies, Production.Balanced, Production.makes, rule, ruleOrFault,
    noted, Nonterminal.own, Nonterminal.trees, node, snoc, arrayElement, magic,
    marked_interpolate, markedIn_append, markedIn_cons, markedIn_nil, marked_node, marked_comment,
    marked_list, marked_null, marked_bool, marked_int, marked_float, marked_text, bareCount_zero,
    ne_eq, not_false_eq_true, if_false, add_zero, zero_add, add_assoc, implies_true, and_true]
  -- What is left are texts that are first read, and the two constants that name the file.
  · intro t x h
    obtain ⟨n, -, rfl⟩ := ok_of_map h
    rfl
  · rintro t x ⟨⟩
    exact marked_magic t.line _ file
  · rintro t x ⟨⟩
    exact marked_magic t.line _ (directory file)
  · exact fun _ _ _ _ h => marked_unescape h
  · intro before _ t x h
    obtain ⟨part, hpart, rfl⟩ := ok_of_map h
    rw [marked_interpolate, marked_unescape hpart, add_zero]
  · intro t x h
    split at h <;> cases h
    rfl

theorem conserves : ∀ p ∈ productions, p.Conserves :=
  forall_productions conserves_statements conserves_declarations conserves_expressions
    conserves_literals

/-- The marked nodes of the value of a production are those below it, and its own. -/
theorem Forest.balanced_node {p : Production} {hp : p ∈ productions} {children : Forest p.rhs}
    {rest : Forest ss} {x : p.lhs.Value} {xs : Values ss}
    (h : (Forest.node p hp children rest).value file = .ok (x, xs)) :
    ∃ ys, children.value file = .ok ys ∧ (p.action file).apply ys = .ok x ∧
      rest.value file = .ok xs ∧ p.Balanced (marks p.rhs ys) x := by
  obtain ⟨ys, hc, ha, hr⟩ := value_node h
  have hbalanced := (conserves p hp file).apply (children.formed hc) x ha
  rw [zero_add] at hbalanced
  exact ⟨ys, hc, ha, hr, hbalanced⟩

/-- A token becomes a comment, if anything. -/
theorem isOf_noted {k : Token.Kind} {t : Token} {n : Tree} (h : n ∈ noted k t) :
    n.isOf [.comment] = true := by
  unfold noted at h
  split at h
  · cases Multiset.mem_singleton.mp h
    rfl
  · cases Multiset.mem_singleton.mp h
    rfl
  · cases h

/-- Every declaration in the values of a forest is read from tokens that stand side by side in
it. -/
theorem Forest.exists_declares {vs : Values ss} {n : Tree} (forest : Forest ss)
    (h : forest.value file = .ok vs) (hn : n ∈ marks ss vs)
    (hk : n.isOf declarationKinds = true) : ∃ us, us <:+: forest.yield ∧ Declares file us n := by
  induction forest with
  | nil => cases hn
  | token t rest ih =>
    obtain ⟨ws, hr, rfl⟩ := ok_of_map h
    obtain hn | hn := Multiset.mem_add.mp hn
    · obtain ⟨line, fs, rfl⟩ := isOf_singleton (isOf_noted hn)
      cases hk
    · obtain ⟨us, hus, hread⟩ := ih hr hn
      exact ⟨us, hus.trans (List.suffix_cons t rest.yield).isInfix, hread⟩
  | node p hp children rest ihc ihr =>
    obtain ⟨x, xs⟩ := vs
    obtain ⟨ys, hc, ha, hr, hmarks, -⟩ := balanced_node h
    rw [marks, hmarks, Multiset.mem_add, Multiset.mem_add] at hn
    have hfirst := (List.prefix_append children.yield rest.yield).isInfix
    obtain (hn | hn) | hn := hn
    · obtain hblock | ⟨-, hread⟩ := (readAs_node hp hc ha).mem_own hn
      · obtain ⟨line, fs, rfl⟩ := isOf_singleton hblock
        cases hk
      · exact ⟨_, hfirst, hread⟩
    · obtain ⟨us, hus, hread⟩ := ihc hc hn
      exact ⟨us, hus.trans hfirst, hread⟩
    · obtain ⟨us, hus, hread⟩ := ihr hr hn
      exact ⟨us, hus.trans (List.suffix_append children.yield rest.yield).isInfix, hread⟩

theorem Derivation.exists_declares {x : v.Value} {n : Tree} (d : Derivation v)
    (h : d.result file = .ok x) (hn : n ∈ nodesIn (v.trees x))
    (hk : n.isOf declarationKinds = true) : ∃ us, us <:+: d.yield ∧ Declares file us n := by
  obtain ⟨⟨x, u⟩, hvalue, rfl⟩ := ok_of_map h
  refine Forest.exists_declares d hvalue (Multiset.mem_add.mpr (.inl ?_)) hk
  exact List.mem_filter.mpr ⟨hn, isMarked_of_isOf hk⟩

/-- The number of nodes without a line that the actions of a forest make. -/
def Forest.makes : {ss : List Symbol} → Forest ss → Nat
  | _, nil => 0
  | _, token _ rest => rest.makes
  | _, node p _ children rest => children.makes + p.makes + rest.makes

/-- A token that becomes a comment makes no node that should have a line. -/
theorem bareCount_noted (k : Token.Kind) (t : Token) : bareCount (noted k t) = 0 := by
  unfold noted
  split <;> rfl

/-- The nodes without a line in the values of a forest are those that its actions make. -/
theorem Forest.bareCount_marks {vs : Values ss} (forest : Forest ss)
    (h : forest.value file = .ok vs) : bareCount (marks ss vs) = forest.makes := by
  induction forest with
  | nil => rfl
  | token t rest ih =>
    obtain ⟨ws, hr, rfl⟩ := ok_of_map h
    rw [marks, bareCount_add, bareCount_noted, ih hr, Nat.zero_add, makes]
  | node p hp children rest ihc ihr =>
    obtain ⟨x, xs⟩ := vs
    obtain ⟨ys, hc, -, hr, hmarks, hown⟩ := balanced_node h
    rw [marks, bareCount_add, hmarks, bareCount_add, hown, ihc hc, ihr hr, makes,
      Nat.add_comm p.makes]

theorem Derivation.bareIn_trees {x : v.Value} (d : Derivation v) (h : d.result file = .ok x) :
    bareIn (v.trees x) = d.makes := by
  obtain ⟨⟨x, u⟩, hvalue, rfl⟩ := ok_of_map h
  rw [← d.bareCount_marks hvalue, marks, marks, add_zero, bareCount_markedIn]

end Grammar
end Docblock
