import Docblock.Proofs.Grammar.Invariant
import Docblock.Proofs.Tree.Equality
import Docblock.Proofs.Tree.Layout
import Docblock.Proofs.Tree.Lines

/-! The trees that the actions of productions make. What holds of leaves and is kept by the nodes
that actions put together holds of every tree of a source. -/
namespace Docblock

namespace Tree

variable {t : Tree} {ts : List Tree} {k : Kind} {line : Int}

/-- The trees that actions make: every node has its shape, its layout and a line. A comment has no
line, nor has the block of an arm behind a colon. -/
inductive Made : Tree → Prop
  | null : Made .null
  | bool (b : Bool) : Made (.bool b)
  | int (n : Int) : Made (.int n)
  | float {x : Double} (h : x.isNumber = true) : Made (.float x)
  | text (s : String) : Made (.text s)
  | list {ts : List Tree} (h : ∀ t ∈ ts, Made t) : Made (.list ts)
  | comment (s : String) : Made (.node .comment none [.text s])
  | node {k : Kind} {line : Int} {fs : List Tree} (hs : shape k (some line) fs = true)
      (hl : layout k (some line) fs = true) (h : ∀ t ∈ fs, Made t) : Made (.node k (some line) fs)
  | arm {line : Int} {e : Tree} {ss : List Tree} (he : Made e) (hl : e.isList = false)
      (h : ∀ t ∈ ss, Made t) (hs : ∀ t ∈ ss, t.isList = false) :
      Made (.node .elseIf (some line) [e, .node .block none [.list ss]])

theorem made_list : Made (.list ts) ↔ ∀ t ∈ ts, Made t :=
  ⟨fun h => by cases h; assumption, .list⟩

theorem made_node (hk : k ≠ .elseIf) : Made (.node k (some line) ts) ↔
    shape k (some line) ts = true ∧ layout k (some line) ts = true ∧ ∀ t ∈ ts, Made t := by
  refine ⟨fun h => ?_, fun h => .node h.1 h.2.1 h.2.2⟩
  cases h with
  | node hs hl h => exact ⟨hs, hl, h⟩
  | arm => exact absurd rfl hk

theorem Made.shaped (h : Made t) : t.shaped = true := by
  induction h with
  | null | bool | int | float | text | comment => rfl
  | list _ ih => exact shaped_list.mpr ih
  | node hs _ _ ih => exact shaped_node.mpr ⟨hs, ih⟩
  | arm _ _ _ _ ihe ih => simpa [shaped_node, shaped_list, ihe] using ih

theorem Made.laid (h : Made t) : t.laid = true := by
  induction h with
  | null | bool | int | float | text | comment => rfl
  | list _ ih => exact laid_list.mpr ih
  | node _ hl _ ih => exact laid_node.mpr ⟨hl, ih⟩
  | arm _ hl _ hs ihe ih =>
    simpa [laid_node, laid_list, flat_list, flat_node, flat_of_not_list hl, ihe] using ⟨hs, ih⟩

theorem Made.proper (h : Made t) : t.proper = true := by
  induction h with
  | null | bool | int | text | comment => rfl
  | float h => exact h
  | list _ ih => exact proper_list.mpr ih
  | node _ _ _ ih => exact proper_node.mpr ih
  | arm _ _ _ _ ihe ih => simpa [proper_node, proper_list, ihe] using ih

theorem Made.lined (h : Made t) : Lined t := by
  induction h with
  | null => exact .null
  | bool b => exact .bool b
  | int n => exact .int n
  | float => exact .float _
  | text s => exact .text s
  | list _ ih => exact .list ih
  | comment s => exact .comment (by simp [Lined.text])
  | node _ _ _ ih => exact .node ih
  | arm _ _ _ _ ihe ih => exact .arm ihe ih

end Tree

namespace Grammar

open Docblock.Tree

def Property.trees (p : Property) : List Tree := p.name :: p.dimensions.map Dimension.value

def Access.trees (a : Access) : List Tree := a.property.trees ++ a.arguments.getD []

/-- The trees in a value. -/
@[simp]
def Nonterminal.trees : (v : Nonterminal) → v.Value → List Tree
  | .qualifiedName, _ | .className, _ | .namespaceName, _ | .modifier, _ | .isReference, _
  | .empty, _ | .possibleComma, _ | .caseSeparator, _ => []
  | .dynamicProperty, p | .objectProperty, p => p.trees
  | .dynamicProperties, ps => ps.flatMap Property.trees
  | .dimensions, ds => ds.map Dimension.value
  | .methodArguments, args => args.getD []
  | .property, a => a.trees
  | .properties, as => as.flatMap Access.trees
  | .start, ts | .topStatements, ts | .useDeclarations, ts | .constantDeclarations, ts
  | .innerStatements, ts | .moreCatches, ts | .directives, ts | .elseifs, ts | .colonElseifs, ts
  | .forExprs1, ts | .switchBody, ts | .cases, ts | .globalVars, ts | .staticVars, ts
  | .echoExprs, ts | .unsetVars, ts | .implementsClause, ts | .classStatements, ts
  | .classVars, ts | .classConstants, ts | .interfaces, ts | .varModifiers, ts
  | .methodModifiers, ts | .methodBody, ts | .modifiers1, ts | .parameters, ts
  | .constructorArguments, ts | .listTargets, ts | .arrayPairs, ts | .arrayPairs1, ts
  | .arguments, ts | .closureVars, ts | .closureVars1, ts | .issetVars, ts | .staticPairs, ts
  | .staticPairs1, ts => ts
  | .topStatement, t | .useDeclaration, t | .constantDeclaration, t | .innerStatement, t
  | .statement, t | .declareBody, t | .elsePart, t | .colonElse, t | .whileBody, t
  | .forExprs, t | .forBody, t | .foreachVar, t | .foreachTarget, t | .foreachBody, t
  | .globalVar, t | .staticVar, t | .unsetVar, t | .functionDeclaration, t
  | .classDeclaration, t | .classType, t | .extendsClause, t | .classStatement, t
  | .interfaceExtends, t | .parameter, t | .expr, t | .classReference, t | .dynamicReference, t
  | .listTarget, t | .varExpr, t | .baseWithCalls, t | .functionCall, t | .baseVar, t
  | .indirectVar, t | .staticMember, t | .varClassName, t | .referenceVar, t | .compoundVar, t
  | .dimension, t | .propertyName, t | .varWithoutObjects, t | .argument, t | .scalar, t
  | .classConstant, t | .commonScalar, t | .staticScalar, t | .encapsVar, t | .encapsOffset, t
  | .encapsList, t | .comment, t => [t]

/-- The indices in a value. -/
@[simp]
def Nonterminal.indices : (v : Nonterminal) → v.Value → List Dimension
  | .dynamicProperty, p | .objectProperty, p => p.dimensions
  | .dynamicProperties, ps => ps.flatMap Property.dimensions
  | .dimensions, ds => ds
  | .property, a => a.property.dimensions
  | .properties, as => as.flatMap (·.property.dimensions)
  | _, _ => []

/-- What the trees in the values of some nonterminals are. -/
@[simp]
def Nonterminal.admits : Nonterminal → Tree → Bool
  | .functionDeclaration => isOf [.function]
  | .parameters | .parameter => isOf [.formalParameter]
  | .classStatements | .classStatement => isOf memberKinds
  | .comment => isOf [.comment]
  | .classVars => isOf [.classVariable]
  | .varModifiers | .methodModifiers | .modifiers1 => isText
  | .arrayPairs | .arrayPairs1 => isOf [.arrayElement]
  | .staticPairs | .staticPairs1 => fun t => t.isOf [.arrayElement] && t.classless
  | .staticScalar | .commonScalar => classless
  | _ => fun _ => true

/-- Whether a tree in the value of a nonterminal may be a list. -/
@[simp]
def Nonterminal.accepts : Nonterminal → Tree → Bool
  | .listTarget | .listTargets => fun _ => true
  | .forExprs | .interfaceExtends => flat
  | _ => (!·.isList)

/-- Whether no statement with a body stands in the trees in the values of a nonterminal, but in
closures. -/
@[simp]
def Nonterminal.isPlain : Nonterminal → Bool
  | .start | .topStatements | .innerStatements | .classStatements | .methodBody | .topStatement
  | .innerStatement | .statement | .whileBody | .forBody | .foreachBody | .functionDeclaration
  | .classDeclaration | .classStatement | .elseifs | .colonElseifs | .elsePart | .colonElse
  | .moreCatches | .declareBody | .switchBody | .cases => false
  | _ => true

def Dimension.isOffset (d : Dimension) : Bool := d.kind == .arrayOffset || d.kind == .stringOffset

/-- The trees in a value are made, and fit its nonterminal; its indices are offsets. -/
def Formed (v : Nonterminal) (x : v.Value) : Prop :=
  (∀ t ∈ v.trees x, Made t ∧ v.admits t = true ∧ v.accepts t = true ∧
    (v.isPlain = true → t.plain = true)) ∧ ∀ d ∈ v.indices x, d.isOffset = true

/-- A tree that may stand in an expression. -/
structure Operand (t : Tree) : Prop where
  made : Made t
  isList : t.isList = false
  plain : t.plain = true

theorem operand_node {line : Int} {k : Tree.Kind} {fs : List Tree} (hk : k ∉ .closure :: suiteKinds)
    (hs : shape k (some line) fs = true) (hl : layout k (some line) fs = true)
    (hm : ∀ f ∈ fs, Made f) (hp : ∀ f ∈ fs, f.plain = true) : Operand (node line k fs) := by
  rw [List.mem_cons, not_or] at hk
  exact ⟨.node hs hl hm, rfl, (plain_node hk.1).mpr ⟨hk.2, hp⟩⟩

theorem operand_indexed {t : Tree} {ds : List Dimension} (ht : Operand t)
    (hd : ∀ d ∈ ds, Operand d.value) (hk : ∀ d ∈ ds, d.isOffset = true) :
    Operand (indexed t ds) := by
  induction ds generalizing t with
  | nil => exact ht
  | cons d ds ih =>
    obtain ⟨hhead, htail⟩ := List.forall_mem_cons.mp hd
    obtain ⟨hkind, hkinds⟩ := List.forall_mem_cons.mp hk
    have hnode : Operand (node d.line d.kind [t, d.value]) := by
      obtain hk | hk : d.kind = .arrayOffset ∨ d.kind = .stringOffset := by
        simpa [Dimension.isOffset] using hkind
      all_goals
        rw [hk]
        refine operand_node (by decide) rfl ?_ (by simp [ht.made, hhead.made])
          (by simp [ht.plain, hhead.plain])
        simp [flat_of_not_list, ht.isList, hhead.isList]
    exact ih hnode htail hkinds

theorem operand_access {t : Tree} {a : Access} (line : Int) (ht : Operand t)
    (ha : ∀ u ∈ a.trees, Operand u) (hk : ∀ d ∈ a.property.dimensions, d.isOffset = true) :
    Operand (access line t a) := by
  obtain ⟨⟨name, ds⟩, args⟩ := a
  simp only [Access.trees, Property.trees, List.forall_mem_append, List.forall_mem_cons,
    List.forall_mem_map] at ha
  obtain ⟨⟨hname, hds⟩, hargs⟩ := ha
  refine operand_indexed ?_ hds hk
  cases args with
  | none =>
    refine operand_node (by decide) rfl ?_ (by simp [ht.made, hname.made])
      (by simp [ht.plain, hname.plain])
    simp [flat_of_not_list, ht.isList, hname.isList]
  | some args =>
    simp only [Option.getD_some] at hargs
    refine operand_node (by decide) rfl ?_ ?_ ?_
    · simpa [flat_of_not_list, flat_list, ht.isList, hname.isList] using
        fun u hu => (hargs u hu).isList
    · simpa [made_list, ht.made, hname.made] using fun u hu => (hargs u hu).made
    · simpa [plain_list, ht.plain, hname.plain] using fun u hu => (hargs u hu).plain

/-- A chain of properties. -/
theorem operand_accesses {t : Tree} (line : Int) (as : List Access) (ht : Operand t)
    (ha : ∀ u ∈ as.flatMap Access.trees, Operand u)
    (hk : ∀ d ∈ as.flatMap (·.property.dimensions), d.isOffset = true) :
    Operand (as.foldl (access line) t) := by
  induction as generalizing t with
  | nil => exact ht
  | cons a as ih =>
    rw [List.flatMap_cons, List.forall_mem_append] at ha hk
    exact ih (operand_access line ht ha.1 hk.1) ha.2 hk.2

theorem operand_interpolate {before part : Tree} (line : Int) (hb : Operand before)
    (hp : Operand part) : Operand (interpolate line before part) := by
  simp only [interpolate]
  split
  · exact hp
  · refine operand_node (by decide) rfl ?_ (by simp [Made.text, hb.made, hp.made])
      (by simp [plain_text, hb.plain, hp.plain])
    simp [flat_text, flat_of_not_list, hb.isList, hp.isList]

theorem operand_text (s : String) : Operand (.text s) := ⟨.text s, rfl, rfl⟩

theorem operand_unescape {s : String} {t : Tree} (h : unescape s = .ok t) :
    Operand t ∧ t.classless = true := by
  simp only [unescape] at h
  split at h <;> cases h
  exact ⟨operand_text _, rfl⟩

/-- A constant that names its file has a text or nothing for it. -/
theorem formed_magic (line : Int) (name : String) (file : Option String) :
    Made (.node .magicConstant (some line) [.text name, optionalText file]) ∧
      (Tree.node .magicConstant (some line) [.text name, optionalText file]).classless = true ∧
      (Tree.node .magicConstant (some line) [.text name, optionalText file]).isList = false ∧
      (Tree.node .magicConstant (some line) [.text name, optionalText file]).plain = true := by
  cases file with
  | none => exact ⟨.node rfl rfl (by simp [optionalText, Made.text, Made.null]), rfl, rfl, rfl⟩
  | some s => exact ⟨.node rfl rfl (by simp [optionalText, Made.text]), rfl, rfl, rfl⟩

/-- What values are told to be, as operands. -/
theorem operands {ts : List Tree}
    (h : ∀ t ∈ ts, Made t ∧ t.isList = false ∧ t.plain = true) : ∀ t ∈ ts, Operand t :=
  fun t ht => ⟨(h t ht).1, (h t ht).2.1, (h t ht).2.2⟩

theorem keeps_formed_statements :
    ∀ p ∈ topRules ++ innerRules ++ statementRules ++ armRules ++ varListRules,
      p.Keeps Formed := by
  simp only [topRules, innerRules, statementRules, armRules, varListRules, jumpRules, commaRules,
    bodyRules, List.forall_mem_append, List.forall_mem_cons, List.not_mem_nil, false_imp_iff,
    implies_true, and_true]
  repeat' apply And.intro
  all_goals first | apply keeps_rule | apply keeps_ruleOrFault
  all_goals simp +contextual +decide only [Ensures, Formed, Nonterminal.trees, Nonterminal.admits,
    Nonterminal.accepts, Nonterminal.indices, node, made_node, made_list, Made.null, Made.bool,
    Made.text, shape, layout, flat_list, flat_text, flat_node, flat_of_not_list, isList_node,
    plain_node, plain_list, plain_text, Bool.not_eq_true', List.all_cons,
    List.all_nil, Bool.and_true, Bool.and_eq_true, snoc, one, id, catchArm,
    List.forall_mem_append, List.forall_mem_cons, List.not_mem_nil, false_imp_iff, true_imp_iff,
    implies_true, and_true, true_and, reduceCtorEq, and_imp]
  -- What is left is the loop, where the first of two names is the key, and the arms.
  · intro w _ e he he' _ _ first hfirst hfirst' _ target htarget htarget' _ _ body hbody hbody'
    split <;> simp [made_node, flat_of_not_list, isList_node, *]
  · intro arms _ w _ e he he' _ _ s hs hs'
    exact .node rfl (by simp [flat_of_not_list, he', hs']) (by simp [he, hs])
  · intro arms _ w _ e he he' _ _ _ ss hss
    exact .arm he he' (fun t ht => (hss t ht).1) fun t ht => (hss t ht).2

theorem keeps_formed_declarations :
    ∀ p ∈ functionRules ++ parameterRules ++ classRules ++ memberRules, p.Keeps Formed := by
  simp only [functionRules, parameterRules, classRules, memberRules, nameRules, commaRules,
    List.forall_mem_append, List.forall_mem_cons, List.forall_mem_map, List.not_mem_nil,
    false_imp_iff, implies_true, and_true]
  repeat' apply And.intro
  all_goals apply keeps_rule
  all_goals simp +contextual +decide only [Ensures, Formed, Nonterminal.trees, Nonterminal.admits,
    Nonterminal.accepts, Nonterminal.indices, node, made_node, made_list, Made.null, Made.bool,
    Made.text, shape, layout, flat_list, flat_text, flat_bool, flat_of_not_list, isOf_node,
    isList_node, isList_text, plain_node, plain_list, plain_text, classless_null, classless_text,
    isText, Bool.not_eq_true', List.all_cons, List.all_nil, List.all_eq_true, Bool.and_true,
    Bool.and_eq_true, snoc, one, formalParameter, classVariable, List.forall_mem_append,
    List.forall_mem_cons, List.not_mem_nil, false_imp_iff, true_imp_iff, implies_true, and_true,
    true_and, reduceCtorEq, and_imp]
  -- What is left is the comment among the members of a class.
  exact fun _ _ hc _ _ => isOf_memberKinds hc

theorem keeps_formed_expressions :
    ∀ p ∈ exprRules ++ operatorRules ++ arrayRules ++ argumentRules ++ classNameRules ++
      callRules ++ variableRules, p.Keeps Formed := by
  simp only [exprRules, operatorRules, arrayRules, argumentRules, classNameRules, callRules,
    variableRules, nameRules, commaRules, casts, inclusions, List.forall_mem_append,
    List.forall_mem_cons, List.forall_mem_map, List.not_mem_nil, false_imp_iff, implies_true,
    and_true]
  repeat' apply And.intro
  all_goals intros
  all_goals apply keeps_rule
  all_goals simp +contextual +decide only [Ensures, Formed, Nonterminal.trees, Nonterminal.admits,
    Nonterminal.accepts, Nonterminal.indices, Access.trees, Property.trees, Dimension.isOffset,
    node, made_node, made_list, Made.null, Made.bool, Made.text, shape, layout, flat_list,
    flat_text, flat_bool, flat_of_not_list, isOf_node, isList_node, isList_text, plain_node,
    plain_closure, plain_list, plain_text, Bool.not_eq_true', List.all_cons,
    List.all_nil, List.all_eq_true, Bool.and_true, Bool.and_eq_true, snoc, one, arrayElement,
    lexicalVar, List.map_append, List.map_cons, List.map_nil, List.flatMap_append,
    List.flatMap_cons, List.flatMap_nil, List.append_nil, Option.getD_some, Option.getD_none,
    List.forall_mem_append, List.forall_mem_cons, List.not_mem_nil, false_imp_iff, true_imp_iff,
    implies_true, and_true, true_and, and_imp]
  -- What is left are the two chains of properties, which are folds.
  · intro t ht ht' ht'' o p hname hname' hname'' hds hks ps hps hkinds
    have hchain := operand_accesses o.line ((p :: ps).map (⟨·, none⟩)) ⟨ht, ht', ht''⟩ ?_ ?_
    · rw [List.foldl_map] at hchain
      exact ⟨hchain.made, hchain.isList, hchain.plain⟩
    · simp only [List.flatMap_map, Access.trees, Option.getD_none, List.append_nil,
        List.flatMap_cons, List.forall_mem_append]
      exact ⟨List.forall_mem_cons.mpr ⟨⟨hname, hname', hname''⟩, operands hds⟩, operands hps⟩
    · simp only [List.flatMap_map, List.flatMap_cons, List.forall_mem_append]
      exact ⟨hks, hkinds⟩
  · intro t ht ht' ht'' o p hname hname' hname'' hds hks args hargs more hmore hkinds
    have hchain := operand_accesses o.line (⟨p, args⟩ :: more) ⟨ht, ht', ht''⟩ ?_ ?_
    · exact ⟨hchain.made, hchain.isList, hchain.plain⟩
    · rw [List.flatMap_cons, List.forall_mem_append, Access.trees, List.forall_mem_append]
      exact ⟨⟨List.forall_mem_cons.mpr ⟨⟨hname, hname', hname''⟩, operands hds⟩, operands hargs⟩,
        operands hmore⟩
    · rw [List.flatMap_cons, List.forall_mem_append]
      exact ⟨hks, hkinds⟩

theorem keeps_formed_literals :
    ∀ p ∈ scalarRules ++ staticScalarRules ++ encapsRules, p.Keeps Formed := by
  simp only [scalarRules, staticScalarRules, encapsRules, nameRules, List.forall_mem_append,
    List.forall_mem_cons, List.not_mem_nil, false_imp_iff, implies_true, and_true]
  repeat' apply And.intro
  all_goals first | apply keeps_rule | apply keeps_ruleOrFault | intro file
  all_goals simp +contextual +decide only [Ensures, Formed, Nonterminal.trees, Nonterminal.admits,
    Nonterminal.accepts, Nonterminal.indices, node, made_node, made_list, Made.null, Made.bool,
    Made.int, Made.text, Made.comment, shape, layout, isLeaf, flat_list, flat_text, flat_node,
    flat_of_not_list, isOf_node, isList_node, isList_float, isList_text, plain_node, plain_list,
    plain_int, plain_float, plain_text, classless_node, classless_list, classless_int,
    classless_float, classless_text, Bool.not_eq_true', List.all_cons, List.all_nil,
    List.all_eq_true, Bool.and_true, Bool.and_eq_true, snoc, arrayElement, magic,
    List.forall_mem_append, List.forall_mem_cons, List.not_mem_nil, false_imp_iff, true_imp_iff,
    implies_true, and_true, true_and, and_imp]
  -- What is left are the texts that are first read, and the name of the file.
  · intro t v h
    obtain ⟨n, -, rfl⟩ := ok_of_map h
    exact ⟨.int n, rfl, rfl, rfl⟩
  · exact fun t => .float (Double.isNumber_ofDecimal false _ _)
  · rintro t v ⟨⟩
    exact formed_magic t.line _ file
  · rintro t v ⟨⟩
    exact formed_magic t.line _ (directory file)
  · intro _ t _ v h
    obtain ⟨hv, hclassless⟩ := operand_unescape h
    exact ⟨hv.made, hclassless, hv.isList, hv.plain⟩
  · intro x hx hx' hx'' part hp hp' hp''
    have hboth := operand_interpolate 0 ⟨hx, hx', hx''⟩ ⟨hp, hp', hp''⟩
    exact ⟨hboth.made, hboth.isList, hboth.plain⟩
  · intro x hx hx' hx'' t v h
    obtain ⟨part, hpart, rfl⟩ := ok_of_map h
    have hboth := operand_interpolate t.line ⟨hx, hx', hx''⟩ (operand_unescape hpart).1
    exact ⟨hboth.made, hboth.isList, hboth.plain⟩
  · intro t v h
    split at h <;> cases h
    exact ⟨.int _, rfl, rfl⟩

/-- Every action makes trees that fit its nonterminal of such trees. -/
theorem keeps_formed : ∀ p ∈ productions, p.Keeps Formed :=
  forall_productions keeps_formed_statements keeps_formed_declarations keeps_formed_expressions
    keeps_formed_literals

variable {file : Option String} {ss : List Symbol} {v : Nonterminal}

theorem Forest.formed {vs : Values ss} (forest : Forest ss) (h : forest.value file = .ok vs) :
    Holds Formed ss vs :=
  forest.holds keeps_formed h

theorem Derivation.formed {x : v.Value} (d : Derivation v) (h : d.result file = .ok x) :
    Formed v x :=
  d.holds keeps_formed h

/-- The trees of a source are made. -/
theorem Derivation.made {x : v.Value} (d : Derivation v) (h : d.result file = .ok x) :
    ∀ t ∈ v.trees x, Made t :=
  fun t ht => ((d.formed h).1 t ht).1

end Grammar
end Docblock
