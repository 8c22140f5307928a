import Docblock.Proofs.Automaton.Literals
import Docblock.Proofs.Automaton.Statement

/-! Conditionals in each other without braces: the arms belong to the nearest one. -/
namespace Docblock

open Token Grammar Automaton

variable {file : Option String} {more : List Token}

/-- Tokens that are an expression, with its tree: they can be thrown. -/
structure Expression (file : Option String) where
  tokens : List Token
  tree : Tree
  thrown : ∃ word semi : Token, word.kind = .kwThrow ∧
    parsed file (word :: (tokens ++ [semi])) = .ok [node word.line .throwError [tree]]

namespace Expression

/-- Something that is thrown, as a statement. -/
def throwing : Enclosure where
  first := .kwThrow
  inside := .expr
  last := .semi
  rule := Reduction.throwValue
  atFirst := State.throwWord
  atInside := State.throwExpr

/-- A place for an expression: the states before and behind it, and the states that are others than
where something is thrown. -/
structure Place where
  before : Nat
  behind : Nat
  moved : List (Nat × Nat)

/-- An expression in parentheses, with the states before and behind it. -/
abbrev parenPlace (before behind : Nat) : Place := ⟨before, behind, [(State.throwExpr, behind)]⟩

abbrev ifPlace : Place := parenPlace State.ifParen State.ifExpr

abbrev elseifPlace : Place := parenPlace State.elseifParen State.elseifExpr

def conditionPlaces : List Place := [ifPlace, elseifPlace]

/-- The states before and behind a statement under a condition. -/
abbrev underIf : Nat × Nat := (State.ifClose, State.ifStatement)

/-- Those under a further condition. -/
abbrev underElseif : Nat × Nat := (State.elseifClose, State.elseifStatement)

/-- Those under no condition. -/
abbrev underElse : Nat × Nat := (State.elseWord, State.elseStatement)

def underStates : List (Nat × Nat) := [underIf, underElseif, underElse]

def statementPlace (q : Nat × Nat) : Place :=
  ⟨q.1, State.expr, [(State.throwExpr, State.expr), (State.staticInExpr, State.staticWord)]⟩

/-- An expression as a statement. -/
def statementPlaces : List Place := underStates.map statementPlace

/-- Before a semicolon or the parenthesis that closes a condition, an expression has been read, or
something that can end one. -/
def ending : Ending where
  after := .semi
  instead := [.rightParen]
  symbols := [
    .n .expr, .n .scalar, .n .commonScalar, .n .classConstant, .n .namespaceName, .n .className,
    .n .classReference, .n .constructorArguments, .n .dynamicReference, .n .dynamicProperties,
    .n .dynamicProperty, .n .dimensions, .n .varExpr, .n .baseWithCalls, .n .functionCall,
    .n .methodArguments, .n .properties, .n .property, .n .objectProperty, .n .propertyName,
    .n .baseVar, .n .indirectVar, .n .referenceVar, .n .compoundVar, .n .staticMember,
    .n .varWithoutObjects, .t .dec, .t .double, .t .endHeredoc, .t .ident, .t .inc, .t .integer,
    .t .kwExit, .t .kwStatic, .t .magicClass, .t .magicDir, .t .magicFile, .t .magicFunction,
    .t .magicLine, .t .magicMethod, .t .magicNamespace, .t .quote, .t .rightBrace,
    .t .rightBracket, .t .rightParen, .t .singleQuoted, .t .var, .t .varName]
  states := []

/-- What the tables say of expressions. -/
theorem tables_fit : throwing.fits = true ∧ ending.Fits ∧
    ∀ pl ∈ conditionPlaces ++ statementPlaces,
      grafts State.throwWord pl.before pl.moved = true ∧
        startsAlike pl.moved State.throwWord pl.before = true ∧
        moveTo pl.moved State.throwExpr = pl.behind ∧ symbolInto pl.behind = some (.n .expr) := by
  unfold Ending.Fits
  decide +kernel

theorem production_throw : productions[Reduction.throwValue]? = some (rule .statement
    [.t .kwThrow, .n .expr, .t .semi] fun w e _ => node w.line .throwError [e]) := rfl

theorem thrown_action : actionAt State.throwExpr .semi = .shift State.throwSemi := by decide

/-- What is thrown by itself is read above the word before it. -/
theorem thrown_moves (e : Expression file) : ∃ semi : Token, semi.kind = .semi ∧
    Moves file State.throwWord ⟨[], e.tokens ++ [semi]⟩
      ⟨[⟨State.throwExpr, .n .expr, e.tree⟩], [semi]⟩ := by
  obtain ⟨word, semi, hw, hthrown⟩ := e.thrown
  obtain ⟨x, hx, hs, hmoves⟩ := throwing.moves tables_fit.1 production_throw hw hthrown
  obtain rfl : e.tree = x := List.singleton_inj.mp (by simpa [node] using hx)
  exact ⟨semi, hs, hmoves⟩

/-- An expression has a derivation, of its tokens and with its tree. It need not be the only one:
the grammar itself leaves open how operators group. -/
theorem readAs (e : Expression file) : ReadAs file .expr e.tokens e.tree := by
  obtain ⟨semi, -, hmoves⟩ := e.thrown_moves
  obtain ⟨us, hus, hread⟩ := hmoves.readAs
  obtain ⟨rfl, -⟩ := List.append_inj' hus rfl
  exact hread

open Fragment in
/-- A literal, an array of literals, a variable or a property of one is an expression. -/
def ofLiteral {ts : List Token} {t : Tree} (h : literals.Gives file .expr ts (.ok t)) :
    Expression file where
  tokens := ts
  tree := t
  thrown := ⟨⟨.kwThrow, "throw", 0, 0⟩, ⟨.semi, ";", 0, 0⟩, rfl,
    parsed_gives literals_fits (by decide) (gives_source (gives_throw rfl h rfl))⟩

/-- A variable is an expression. -/
def ofVariable (t : Token) (ht : t.kind = .var) : Expression file :=
  ofLiteral (Fragment.gives_varExpr (Fragment.gives_variable ht))

/-- An expression is read at every place, with a semicolon behind it. -/
theorem exists_moves (e : Expression file) {pl : Place}
    (hpl : pl ∈ conditionPlaces ++ statementPlaces) :
    ∃ semi : Token, semi.kind = .semi ∧ Moves file pl.before ⟨[], e.tokens ++ [semi]⟩
      ⟨[⟨pl.behind, .n .expr, e.tree⟩], [semi]⟩ := by
  obtain ⟨-, -, hplaces⟩ := tables_fit
  obtain ⟨hgraft, hstart, hbehind, -⟩ := hplaces pl hpl
  obtain ⟨semi, hs, hmoves⟩ := e.thrown_moves
  have hother := (graft_of_grafts hgraft).moves_start hstart hmoves (by simp)
    ⟨_, .shift_kind hs thrown_action⟩
  exact ⟨semi, hs, hbehind ▸ hother⟩

theorem semi_moves (e : Expression file) {pl : Place} (hpl : pl ∈ statementPlaces)
    {semi : Token} (hs : semi.kind = .semi) (more : List Token) :
    Moves file pl.before ⟨[], e.tokens ++ semi :: more⟩
      ⟨[⟨pl.behind, .n .expr, e.tree⟩], semi :: more⟩ := by
  obtain ⟨semi', hs', hmoves⟩ := e.exists_moves (List.mem_append_right _ hpl)
  obtain ⟨read, hread, -, hagain⟩ := Moves.reads hmoves
  obtain ⟨rfl, -⟩ := List.append_inj' hread rfl
  exact hagain (semi :: more) (congrArg some (hs.trans hs'.symm))

theorem paren_moves (e : Expression file) {pl : Place} (hpl : pl ∈ conditionPlaces)
    {right : Token} (hr : right.kind = .rightParen) (more : List Token) :
    Moves file pl.before ⟨[], e.tokens ++ right :: more⟩
      ⟨[⟨pl.behind, .n .expr, e.tree⟩], right :: more⟩ := by
  obtain ⟨-, hending, hplaces⟩ := tables_fit
  obtain ⟨-, -, -, hinto⟩ := hplaces pl (List.mem_append_left _ hpl)
  obtain ⟨semi, hs, hmoves⟩ := e.exists_moves (List.mem_append_left _ hpl)
  refine hending.moves hmoves hs ?_ (by simp [ending, hr])
  change ending.tails pl.behind = true
  simp [Ending.tails, hinto, ending]

end Expression

/-- A word and an expression in parentheses. -/
structure Condition (file : Option String) (k : Kind) where
  word : Token
  left : Token
  expr : Expression file
  right : Token
  word_kind : word.kind = k
  left_kind : left.kind = .leftParen
  right_kind : right.kind = .rightParen

namespace Condition

variable {k : Kind}

def tokens (c : Condition file k) : List Token := c.word :: c.left :: (c.expr.tokens ++ [c.right])

/-- The frames of a condition, with the states behind its first and its last token. -/
def frames (c : Condition file k) (pl : Expression.Place) (atWord atRight : Nat) : List Frame :=
  [⟨atRight, .t .rightParen, c.right⟩, ⟨pl.behind, .n .expr, c.expr.tree⟩,
    ⟨pl.before, .t .leftParen, c.left⟩, ⟨atWord, .t k, c.word⟩]

theorem moves (c : Condition file k) {pl : Expression.Place}
    (hpl : pl ∈ Expression.conditionPlaces) {b atWord atRight : Nat}
    (hword : actionAt b k = .shift atWord) (hleft : actionAt atWord .leftParen = .shift pl.before)
    (hright : actionAt pl.behind .rightParen = .shift atRight) (more : List Token) :
    Moves file b ⟨[], c.tokens ++ more⟩ ⟨c.frames pl atWord atRight, more⟩ := by
  have htokens : c.tokens ++ more = c.word :: c.left :: (c.expr.tokens ++ c.right :: more) := by
    simp [tokens]
  rw [htokens]
  have hopen : Moves file b ⟨[], c.word :: c.left :: (c.expr.tokens ++ c.right :: more)⟩
      ⟨[⟨pl.before, .t .leftParen, c.left⟩, ⟨atWord, .t k, c.word⟩],
        c.expr.tokens ++ c.right :: more⟩ :=
    .tail (.single (.shift_kind c.word_kind hword)) (.shift_kind c.left_kind hleft)
  have hexpr := Moves.onto (b := b) [⟨pl.before, .t .leftParen, c.left⟩,
    ⟨atWord, .t k, c.word⟩] (c.expr.paren_moves hpl c.right_kind more)
  exact .tail (hopen.trans hexpr) (.shift_kind c.right_kind hright)

end Condition

/-- An expression as a statement. -/
structure Simple (file : Option String) where
  expr : Expression file
  semi : Token
  semi_kind : semi.kind = .semi

def Simple.tokens (s : Simple file) : List Token := s.expr.tokens ++ [s.semi]

/-- A further condition and what is done under it. -/
structure Further (file : Option String) where
  condition : Condition file .kwElseif
  body : Simple file

/-- What is done under no condition. -/
structure Otherwise (file : Option String) where
  word : Token
  body : Simple file
  word_kind : word.kind = .kwElse

def Further.tokens (a : Further file) : List Token := a.condition.tokens ++ a.body.tokens

def Further.tree (a : Further file) : Tree :=
  node a.condition.word.line .elseIf [a.condition.expr.tree, a.body.expr.tree]

def Otherwise.tokens (o : Otherwise file) : List Token := o.word :: o.body.tokens

def Otherwise.tree (o : Otherwise file) : Tree := node o.word.line .elseArm [o.body.expr.tree]

/-- What may follow a statement: a further condition, what is done under none, or nothing. -/
def afterStatement : List Ahead := [some .kwElseif, some .kwElse, none]

theorem simple_actions : actionAt State.expr .semi = .shift State.exprSemi ∧
    (∀ a ∈ afterStatement, actionOn State.exprSemi a = .reduce Reduction.exprStatement) ∧
    ∀ q ∈ Expression.underStates, target? q.1 (.n .statement) = some q.2 := by
  decide

theorem production_simple :
    productions[Reduction.exprStatement]? = some
      (rule .statement [.n .expr, .t .semi] fun e _ => e) := rfl

theorem Simple.moves (s : Simple file) {q : Nat × Nat}
    (hq : q ∈ Expression.underStates) (hmore : ahead more ∈ afterStatement) :
    Moves file q.1 ⟨[], s.tokens ++ more⟩ ⟨[⟨q.2, .n .statement, s.expr.tree⟩], more⟩ := by
  obtain ⟨hsemi, hreduce, htarget⟩ := simple_actions
  have hexpr := s.expr.semi_moves (List.mem_map_of_mem hq) s.semi_kind more
  have htokens : s.tokens ++ more = s.expr.tokens ++ s.semi :: more := by simp [tokens]
  rw [htokens]
  have hlast : Move file q.1 ⟨[⟨State.exprSemi, .t .semi, s.semi⟩,
      ⟨State.expr, .n .expr, s.expr.tree⟩], more⟩
      ⟨[⟨q.2, .n .statement, s.expr.tree⟩], more⟩ :=
    .reduce_rule production_simple (hreduce _ hmore) rfl rfl (htarget q hq)
  exact .tail (.tail hexpr (.shift_kind s.semi_kind hsemi)) hlast

theorem arm_actions : actionAt State.elseifs .kwElseif = .shift State.elseifWord ∧
    actionAt State.elseifWord .leftParen = .shift State.elseifParen ∧
    actionAt State.elseifExpr .rightParen = .shift State.elseifClose ∧
    target? State.ifStatement (.n .empty) = some State.elseifsBlank ∧
    target? State.ifStatement (.n .elseifs) = some State.elseifs ∧
    ∀ a ∈ afterStatement, actionOn State.ifStatement a = .reduce Reduction.empty ∧
      actionOn State.elseifsBlank a = .reduce Reduction.elseifsNone ∧
      actionOn State.elseifStatement a = .reduce Reduction.elseifsMore := by
  decide

theorem production_arms :
    productions[Reduction.elseifsNone]? = some (rule .elseifs [.n .empty] fun _ => []) ∧
    productions[Reduction.elseifsMore]? = some (rule .elseifs
      [.n .elseifs, .t .kwElseif, .t .leftParen, .n .expr, .t .rightParen, .n .statement]
      fun arms w _ e _ s => snoc arms (node w.line .elseIf [e, s])) :=
  ⟨rfl, rfl⟩

theorem ahead_arms (arms : List (Further file)) (hmore : ahead more ∈ afterStatement) :
    ahead (arms.flatMap Further.tokens ++ more) ∈ afterStatement := by
  cases arms with
  | nil => exact hmore
  | cons a arms =>
    have hahead : ahead ((a :: arms).flatMap Further.tokens ++ more) = some .kwElseif :=
      congrArg some a.condition.word_kind
    rw [hahead]
    exact List.mem_cons_self

/-- A further arm is added to those before it. -/
theorem Further.moves (a : Further file) (ts : List Tree) (hmore : ahead more ∈ afterStatement) :
    Moves file State.ifStatement ⟨[⟨State.elseifs, .n .elseifs, ts⟩], a.tokens ++ more⟩
      ⟨[⟨State.elseifs, .n .elseifs, ts ++ [a.tree]⟩], more⟩ := by
  obtain ⟨hword, hleft, hright, -, htarget, hreduce⟩ := arm_actions
  have hpl : Expression.elseifPlace ∈ Expression.conditionPlaces :=
    List.mem_of_mem_tail List.mem_cons_self
  have hcondition := a.condition.moves hpl hword hleft hright (a.body.tokens ++ more)
  have hbody := a.body.moves (q := Expression.underElseif) (by decide) hmore
  have habove := hcondition.trans (Moves.onto (b := State.elseifs)
    (a.condition.frames Expression.elseifPlace State.elseifWord State.elseifClose) hbody)
  rw [← List.append_assoc] at habove
  have hlast : Move file State.ifStatement
      ⟨⟨State.elseifStatement, .n .statement, a.body.expr.tree⟩ ::
      (a.condition.frames Expression.elseifPlace State.elseifWord State.elseifClose ++
        [⟨State.elseifs, .n .elseifs, ts⟩]), more⟩
      ⟨[⟨State.elseifs, .n .elseifs, ts ++ [a.tree]⟩], more⟩ :=
    .reduce_rule production_arms.2 (hreduce _ hmore).2.2 rfl rfl htarget
  exact .tail (Moves.onto (b := State.ifStatement) [⟨State.elseifs, .n .elseifs, ts⟩] habove) hlast

/-- The arms behind a statement are all read before anything else. -/
theorem arms_moves (arms : List (Further file)) (hmore : ahead more ∈ afterStatement) :
    Moves file State.ifStatement ⟨[], arms.flatMap Further.tokens ++ more⟩
      ⟨[⟨State.elseifs, .n .elseifs, arms.map Further.tree⟩], more⟩ := by
  have hfurther : ∀ (arms : List (Further file)) (ts : List Tree),
      Moves file State.ifStatement ⟨[⟨State.elseifs, .n .elseifs, ts⟩],
        arms.flatMap Further.tokens ++ more⟩
        ⟨[⟨State.elseifs, .n .elseifs, ts ++ arms.map Further.tree⟩], more⟩ := by
    intro arms
    induction arms with
    | nil =>
      intro ts
      rw [List.map_nil, List.append_nil]
      exact .refl
    | cons a arms ih =>
      intro ts
      rw [List.flatMap_cons, List.append_assoc, List.map_cons, List.append_cons]
      exact (a.moves ts (ahead_arms arms hmore)).trans (ih _)
  obtain ⟨-, -, -, hblank, htarget, hreduce⟩ := arm_actions
  obtain ⟨hempty, hnone, -⟩ := hreduce _ (ahead_arms arms hmore)
  have hfirst : Move file State.ifStatement ⟨[], arms.flatMap Further.tokens ++ more⟩
      ⟨[⟨State.elseifsBlank, .n .empty, ()⟩], arms.flatMap Further.tokens ++ more⟩ :=
    .reduce_rule production_empty hempty rfl rfl hblank
  have hstart : Move file State.ifStatement
      ⟨[⟨State.elseifsBlank, .n .empty, ()⟩], arms.flatMap Further.tokens ++ more⟩
      ⟨[⟨State.elseifs, .n .elseifs, []⟩], arms.flatMap Further.tokens ++ more⟩ :=
    .reduce_rule production_arms.1 hnone rfl rfl htarget
  exact .head hfirst (.head hstart (hfurther arms []))

theorem otherwise_actions : actionAt State.elseifs .kwElse = .shift State.elseWord ∧
    actionAtEnd State.elseStatement = .reduce Reduction.elsePart ∧
    actionAtEnd State.elseifs = .reduce Reduction.empty ∧
    actionAtEnd State.elseBlank = .reduce Reduction.elseNone ∧
    target? State.elseifs (.n .empty) = some State.elseBlank ∧
    target? State.elseifs (.n .elsePart) = some State.elsePart := by
  decide

theorem production_otherwise :
    productions[Reduction.elseNone]? = some (rule .elsePart [.n .empty] fun _ => .null) ∧
    productions[Reduction.elsePart]? = some (rule .elsePart [.t .kwElse, .n .statement]
      fun w s => node w.line .elseArm [s]) :=
  ⟨rfl, rfl⟩

def lastTokens (last : Option (Otherwise file)) : List Token := (last.map Otherwise.tokens).getD []

def lastTree (last : Option (Otherwise file)) : Tree := (last.map Otherwise.tree).getD .null

theorem ahead_last (last : Option (Otherwise file)) : ahead (lastTokens last) ∈ afterStatement := by
  cases last with
  | none => exact (show none ∈ afterStatement by decide)
  | some o =>
    have hahead : ahead (lastTokens (some o)) = some .kwElse := congrArg some o.word_kind
    rw [hahead]
    decide

/-- What is done under no condition ends the source. -/
theorem last_moves (last : Option (Otherwise file)) :
    Moves file State.elseifs ⟨[], lastTokens last⟩
      ⟨[⟨State.elsePart, .n .elsePart, lastTree last⟩], []⟩ := by
  obtain ⟨helse, hdone, hempty, hnone, hat, htarget⟩ := otherwise_actions
  cases last with
  | none =>
    have hfirst : Move file State.elseifs ⟨[], []⟩ ⟨[⟨State.elseBlank, .n .empty, ()⟩], []⟩ :=
      .reduce_rule production_empty hempty rfl rfl hat
    have hsecond : Move file State.elseifs ⟨[⟨State.elseBlank, .n .empty, ()⟩], []⟩
        ⟨[⟨State.elsePart, .n .elsePart, .null⟩], []⟩ :=
      .reduce_rule production_otherwise.1 hnone rfl rfl htarget
    exact .tail (.single hfirst) hsecond
  | some o =>
    have hword : Move file State.elseifs ⟨[], o.tokens⟩
        ⟨[⟨State.elseWord, .t .kwElse, o.word⟩], o.body.tokens⟩ :=
      .shift_kind o.word_kind helse
    have hbody := o.body.moves (q := Expression.underElse) (by decide)
      (show ahead [] ∈ afterStatement by decide)
    rw [List.append_nil] at hbody
    have hlast : Move file State.elseifs ⟨[⟨State.elseStatement, .n .statement, o.body.expr.tree⟩,
        ⟨State.elseWord, .t .kwElse, o.word⟩], []⟩ ⟨[⟨State.elsePart, .n .elsePart, o.tree⟩], []⟩ :=
      .reduce_rule production_otherwise.2 hdone rfl rfl htarget
    exact .tail (.head hword (Moves.onto (b := State.elseifs)
      [⟨State.elseWord, .t .kwElse, o.word⟩] hbody)) hlast

/-- The states before and behind a conditional: in a source, and under a condition. -/
def conditionalStates : List (Nat × Nat) := [(gathering, State.statement), Expression.underIf]

theorem conditional_actions : actionAt State.ifWord .leftParen = .shift State.ifParen ∧
    actionAt State.ifExpr .rightParen = .shift State.ifClose ∧
    actionAtEnd State.elsePart = .reduce Reduction.ifElse ∧
    (∀ q ∈ conditionalStates, actionAt q.1 .kwIf = .shift State.ifWord ∧
      target? q.1 (.n .statement) = some q.2) ∧
    actionAt 0 .kwIf = .reduce Reduction.empty ∧
    actionAt State.blank .kwIf = .reduce Reduction.statementsNone := by
  decide

theorem production_conditional :
    productions[Reduction.ifElse]? = some
      (rule .statement [.t .kwIf, .t .leftParen, .n .expr, .t .rightParen,
      .n .statement, .n .elseifs, .n .elsePart] fun w _ e _ s arms last =>
        node w.line .ifElse [e, s, .list arms, last]) :=
  rfl

namespace Condition

/-- The conditional with a condition, a statement under it, and arms. -/
def tree (c : Condition file .kwIf) (t : Tree) (arms : List (Further file))
    (last : Option (Otherwise file)) : Tree :=
  node c.word.line .ifElse [c.expr.tree, t, .list (arms.map Further.tree), lastTree last]

/-- A condition, a statement that is read under it, and the arms that are left are a statement. -/
theorem conditional_moves (c : Condition file .kwIf) (arms : List (Further file))
    (last : Option (Otherwise file)) {q : Nat × Nat} (hq : q ∈ conditionalStates)
    {ts : List Token} {t : Tree}
    (ht : Moves file State.ifClose ⟨[], ts ++ (arms.flatMap Further.tokens ++ lastTokens last)⟩
      ⟨[⟨State.ifStatement, .n .statement, t⟩], arms.flatMap Further.tokens ++ lastTokens last⟩) :
    Moves file q.1 ⟨[], c.tokens ++ (ts ++ (arms.flatMap Further.tokens ++ lastTokens last))⟩
      ⟨[⟨q.2, .n .statement, c.tree t arms last⟩], []⟩ := by
  obtain ⟨hleft, hright, hreduce, hstates, -⟩ := conditional_actions
  obtain ⟨hword, htarget⟩ := hstates q hq
  have hpl : Expression.ifPlace ∈ Expression.conditionPlaces :=
    List.mem_cons_self
  have hcondition := c.moves hpl hword hleft hright
    (ts ++ (arms.flatMap Further.tokens ++ lastTokens last))
  have harms := arms_moves arms (ahead_last last)
  have hrest := harms.trans (Moves.onto (b := State.ifStatement)
    [⟨State.elseifs, .n .elseifs, arms.map Further.tree⟩] (last_moves last))
  have hbody := ht.trans
    (Moves.onto (b := State.ifClose) [⟨State.ifStatement, .n .statement, t⟩] hrest)
  have hparts := hcondition.trans (Moves.onto (b := q.1)
    (c.frames Expression.ifPlace State.ifWord State.ifClose) hbody)
  refine .tail hparts ?_
  exact .reduce_rule production_conditional hreduce rfl rfl htarget

/-- The arms of the innermost conditional are read before any other one ends. -/
theorem nested_moves (c : Condition file .kwIf) (s : Simple file) (arms : List (Further file))
    (last : Option (Otherwise file)) (outer : List (Condition file .kwIf)) {q : Nat × Nat}
    (hq : q ∈ conditionalStates) :
    Moves file q.1 ⟨[], outer.flatMap tokens ++
        (c.tokens ++ (s.tokens ++ (arms.flatMap Further.tokens ++ lastTokens last)))⟩
      ⟨[⟨q.2, .n .statement,
        outer.foldr (fun d t => d.tree t [] none) (c.tree s.expr.tree arms last)⟩], []⟩ := by
  induction outer generalizing q with
  | nil =>
    refine c.conditional_moves arms last hq (s.moves (q := Expression.underIf) (by decide) ?_)
    exact ahead_arms arms (ahead_last last)
  | cons d outer ih =>
    have hinner := ih (q := Expression.underIf) (by decide)
    rw [← List.append_nil (outer.flatMap tokens ++ _)] at hinner
    have houter := d.conditional_moves [] none hq hinner
    have hnone : ([] : List (Further file)).flatMap Further.tokens ++
      lastTokens (none : Option (Otherwise file)) = [] := rfl
    rw [hnone, List.append_nil] at houter
    rwa [List.flatMap_cons, List.append_assoc]

end Condition

theorem parsed_nested (file : Option String) (outer : List (Condition file .kwIf))
    (c : Condition file .kwIf) (s : Simple file) (arms : List (Further file))
    (last : Option (Otherwise file)) :
    parsed file (outer.flatMap Condition.tokens ++
        (c.tokens ++ (s.tokens ++ (arms.flatMap Further.tokens ++ lastTokens last)))) =
      .ok [outer.foldr (fun d t => d.tree t [] none) (c.tree s.expr.tree arms last)] := by
  have hmoves := c.nested_moves s arms last outer (q := (gathering, State.statement)) (by decide)
  have hfirst : ahead (outer.flatMap Condition.tokens ++
      (c.tokens ++ (s.tokens ++ (arms.flatMap Further.tokens ++ lastTokens last)))) =
      some .kwIf := by
    cases outer with
    | nil => exact congrArg some c.word_kind
    | cons d outer => exact congrArg some d.word_kind
  obtain ⟨-, -, -, -, hempty, hnone⟩ := conditional_actions
  refine parsed_ok_iff.mpr (.trans (start_moves ?_ ?_)
    (.trans (Moves.onto (b := 0) [gathered []] hmoves) (statement_moves file [] _)))
  · exact (congrArg (actionOn 0) hfirst).trans hempty
  · exact (congrArg (actionOn State.blank) hfirst).trans hnone

/-- Arms behind conditions without braces belong to the last of the conditions: all conditionals
around it have none. -/
theorem arms_bind_nearest {Reader : Type} {stream : Stream Reader}
    (outer : List (Condition file .kwIf)) (c : Condition file .kwIf) (s : Simple file)
    (arms : List (Further file)) (last : Option (Otherwise file)) (he : stream.error? = none)
    (h : stream.tokens = outer.flatMap Condition.tokens ++
      (c.tokens ++ (s.tokens ++ (arms.flatMap Further.tokens ++ lastTokens last)))) :
    (stream.parse file).1 =
      .ok [outer.foldr (fun d t => d.tree t [] none) (c.tree s.expr.tree arms last)] := by
  rw [parse_eq_parsed he, h]
  exact parsed_nested file outer c s arms last

theorem arms_bind_nearest_two :
    ((Filter.fresh []).parse none
        "<?php if ($a)\nif ($b) $s;\nelseif ($c) $t;\nelse $u;".toList).1 =
      .ok [node 1 .ifElse [node 1 .var [.text "$a"],
        node 2 .ifElse [node 2 .var [.text "$b"], node 2 .var [.text "$s"],
          .list [node 3 .elseIf [node 3 .var [.text "$c"], node 3 .var [.text "$t"]]],
          node 4 .elseArm [node 4 .var [.text "$u"]]],
        .list [], .null]] :=
  arms_bind_nearest
    [⟨⟨.kwIf, "if", 1, 6⟩, ⟨.leftParen, "(", 1, 9⟩, .ofVariable ⟨.var, "$a", 1, 10⟩ rfl,
      ⟨.rightParen, ")", 1, 12⟩, rfl, rfl, rfl⟩]
    ⟨⟨.kwIf, "if", 2, 14⟩, ⟨.leftParen, "(", 2, 17⟩, .ofVariable ⟨.var, "$b", 2, 18⟩ rfl,
      ⟨.rightParen, ")", 2, 20⟩, rfl, rfl, rfl⟩
    ⟨.ofVariable ⟨.var, "$s", 2, 22⟩ rfl, ⟨.semi, ";", 2, 24⟩, rfl⟩
    [⟨⟨⟨.kwElseif, "elseif", 3, 26⟩, ⟨.leftParen, "(", 3, 33⟩, .ofVariable ⟨.var, "$c", 3, 34⟩ rfl,
      ⟨.rightParen, ")", 3, 36⟩, rfl, rfl, rfl⟩,
      ⟨.ofVariable ⟨.var, "$t", 3, 38⟩ rfl, ⟨.semi, ";", 3, 40⟩, rfl⟩⟩]
    (some ⟨⟨.kwElse, "else", 4, 42⟩,
      ⟨.ofVariable ⟨.var, "$u", 4, 47⟩ rfl, ⟨.semi, ";", 4, 49⟩, rfl⟩, rfl⟩)
    (by decide) (by decide)

end Docblock
