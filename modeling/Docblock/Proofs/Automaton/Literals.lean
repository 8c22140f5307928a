import Docblock.Proofs.Automaton.Fragment
import Docblock.Proofs.Token.View

/-! The part of the grammar for literals, constants, interpolated text and variables. -/
namespace Docblock.Automaton

open Token Grammar

open Reduction in
/-- The productions of the fragment: statements and constants, signs and arrays, scalars, static
scalars, interpolated text, and variables and their properties. -/
def literalRules : List Nat :=
  [statementsMore, statementsNone, topStatement, constants, constantsOne, constant, returnValue,
    exprStatement, throwValue, exprVar, exprScalar, exprArray, exprPlus, exprMinus, arrayNone,
    arrayPairs, arrayMoreValue, arrayValue, arrayMorePair, arrayPair, commaNone, comma,
    methodArgumentsNone, varProperty, varExpr, baseWithCalls, propertiesNone, baseVar, indirectVar,
    referenceVar, compoundVar, objectProperty, dimensionsNone, propertyName, scalarCommon, quoted,
    heredoc, varName, constantName, constantGlobalName, constantNamespaceName, integer, double,
    singleQuoted, magicLine, magicFile, magicDir, magicClass, magicMethod, magicFunction,
    magicNamespace, staticCommon, staticQuotedNone, staticQuoted, staticName, staticGlobalName,
    staticNamespaceName, staticPlus, staticMinus, staticArray, staticNone, staticPairs,
    staticMoreValue, staticValue, staticMorePair, staticPair, nameLonger, name, partsVar, partsNone,
    partsText, partVar, partProperty, partDollarCurly, partCurly, empty]

/-- What a literal of one token is. -/
def commonStarts : List Kind :=
  [.integer, .double, .singleQuoted, .magicLine, .magicFile, .magicDir, .magicClass, .magicMethod,
    .magicFunction, .magicNamespace]

/-- What a literal or the name of a constant starts with. -/
def plainStarts : List Kind :=
  [Kind.ident, Kind.backslash, Kind.kwNamespace, Kind.quote] ++ commonStarts

def staticStarts : List Kind := [Kind.plus, Kind.minus, Kind.kwArray] ++ plainStarts

def scalarStarts : List Kind := [Kind.startHeredoc, Kind.varName] ++ plainStarts

def exprStarts : List Kind := [Kind.plus, Kind.minus, Kind.kwArray, Kind.var] ++ scalarStarts

/-- What a part of interpolated text starts with. -/
def partStarts : List Kind := [.encapsed, .var, .dollarCurly, .curlyOpen]

def literalStarts : Nonterminal → List Kind
  | .topStatements | .topStatement => .kwConst :: .kwReturn :: .kwThrow :: exprStarts
  | .statement => .kwReturn :: .kwThrow :: exprStarts
  | .constantDeclarations | .constantDeclaration | .namespaceName | .objectProperty
  | .propertyName => [.ident]
  | .expr | .arrayPairs | .arrayPairs1 => exprStarts
  | .scalar => scalarStarts
  | .commonScalar => commonStarts
  | .staticScalar | .staticPairs | .staticPairs1 => staticStarts
  | .possibleComma => [.comma]
  | .encapsVar => [.var, .dollarCurly, .curlyOpen]
  | .encapsList => partStarts
  | .varExpr | .baseWithCalls | .baseVar | .indirectVar | .referenceVar | .compoundVar => [.var]
  | _ => []

def literalSilent : Nonterminal → Bool
  | .topStatements | .staticPairs | .arrayPairs | .possibleComma | .encapsList | .methodArguments
  | .properties | .dimensions | .empty => true
  | _ => false

/-- Some nonterminals that are read in some states, with what can follow them there. -/
def sitesOf (states : List Nat) (vs : List Nonterminal) (ends : List Kind) : List Site :=
  states.flatMap fun q => vs.map fun v => ⟨q, v, ends.map some⟩

/-- The states in which an expression is read, but that behind a dollar sign and a brace. -/
def exprStates : List Nat :=
  [gathering, State.returnWord, State.throwWord, State.plus, State.minus, State.arrayParen,
    State.arrayComma, State.arrayArrow, State.arrayNextArrow]

def staticStates : List Nat :=
  [State.constEquals, State.staticPlus, State.staticMinus, State.staticArrayParen,
    State.staticArrayComma, State.staticArrayArrow, State.staticArrayNextArrow]

/-- What can follow a value. -/
def valueEnds : List Kind := [.semi, .comma, .rightParen, .doubleArrow]

def topSites : List Site :=
  let ends := none :: (literalStarts .topStatement).map some
  [⟨0, .topStatements, ends⟩, ⟨0, .empty, ends⟩, ⟨gathering, .topStatement, ends⟩,
    ⟨gathering, .statement, ends⟩] ++
    sitesOf [State.constWord] [.constantDeclarations, .constantDeclaration] [.semi]

def valueSites : List Site :=
  sitesOf exprStates [.expr, .scalar, .commonScalar] (.rightBrace :: valueEnds) ++
  sitesOf [State.dollarCurly] [.expr, .scalar, .commonScalar] [.rightBrace] ++
  sitesOf staticStates [.staticScalar, .commonScalar] valueEnds

/-- Names stand where a value does, or behind a backslash. -/
def nameSites : List Site :=
  sitesOf (State.backslash :: State.namespaceBackslash :: exprStates) [.namespaceName]
    (.backslash :: .rightBrace :: valueEnds) ++
  sitesOf [State.dollarCurly] [.namespaceName] [.backslash, .rightBrace] ++
  sitesOf (State.staticBackslash :: State.staticNamespaceBackslash :: staticStates) [.namespaceName]
    (.backslash :: valueEnds)

def arraySites : List Site :=
  sitesOf [State.arrayParen] [.arrayPairs, .empty] [.rightParen] ++
  sitesOf [State.arrayParen] [.arrayPairs1] [.comma, .rightParen] ++
  sitesOf [State.staticArrayParen] [.staticPairs, .empty] [.rightParen] ++
  sitesOf [State.staticArrayParen] [.staticPairs1] [.comma, .rightParen] ++
  sitesOf [State.arrayPairs, State.staticArrayPairs] [.possibleComma, .empty] [.rightParen]

/-- Parts of interpolated text, between quotes and in heredoc text. -/
def partSites : List Site :=
  sitesOf [State.quote] [.encapsList, .empty] (.quote :: partStarts) ++
  sitesOf [State.quoteParts] [.encapsVar] (.quote :: partStarts) ++
  sitesOf [State.heredoc] [.encapsList, .empty] (.endHeredoc :: partStarts) ++
  sitesOf [State.heredocParts] [.encapsVar] (.endHeredoc :: partStarts)

/-- The nonterminals of a variable before it is known whether a property of it follows. -/
def baseParts : List Nonterminal :=
  [.baseWithCalls, .baseVar, .indirectVar, .referenceVar, .compoundVar]

/-- Variables as expressions and between braces, and their properties. -/
def variableSites : List Site :=
  sitesOf exprStates [.varExpr] (.rightBrace :: valueEnds) ++
  sitesOf exprStates baseParts (.objectOperator :: .rightBrace :: valueEnds) ++
  sitesOf [State.dollarCurly, State.curlyOpen] [.varExpr] [.rightBrace] ++
  sitesOf [State.dollarCurly, State.curlyOpen] baseParts [.objectOperator, .rightBrace] ++
  sitesOf [State.objectOperator] [.objectProperty, .propertyName] (.rightBrace :: valueEnds) ++
  sitesOf [State.propertyName] [.dimensions, .empty] (.rightBrace :: valueEnds) ++
  sitesOf [State.objectProperty] [.methodArguments, .empty] (.rightBrace :: valueEnds) ++
  sitesOf [State.methodArguments] [.properties, .empty] (.rightBrace :: valueEnds)

def literals : Fragment :=
  ⟨literalRules, literalStarts, literalSilent,
    topSites ++ valueSites ++ nameSites ++ arraySites ++ partSites ++ variableSites⟩

theorem literals_fits : literals.Fits := by
  unfold Fragment.Fits
  decide +kernel

end Docblock.Automaton

namespace Docblock.Grammar

theorem unescapeAscii_cons {c : Char} (hc : c ≠ '\\') (cs : List Char) :
    Text.unescapeAscii (c :: cs) = (Text.unescapeAscii cs).map (c :: ·) := by
  rw [Text.unescapeAscii.eq_def]
  split
  · rename_i he
    cases he
  · rename_i he
    cases he
    exact absurd rfl hc
  · rename_i he
    cases he
    exact absurd rfl hc
  · rename_i he
    cases he
    rfl

theorem unescapeAscii_plain {cs : List Char} (h : ∀ c ∈ cs, c ≠ '\\') :
    Text.unescapeAscii cs = .ok cs := by
  induction cs with
  | nil => rfl
  | cons c cs ih =>
    obtain ⟨hc, hcs⟩ := List.forall_mem_cons.mp h
    rw [unescapeAscii_cons hc, ih hcs]
    rfl

/-- Where there is nothing to decode, a part stands for its own text. -/
theorem unescape_plain {s : String} (h : ∀ c ∈ s.toList, c.toNat < 0x80 ∧ c ≠ '\\') :
    unescape s = .ok (.text s) := by
  have hascii : s.toList.all (fun c => c.toNat < 0x80) = true := by
    simpa using fun c hc => (h c hc).1
  rw [unescape, Text.unescape, if_pos hascii, unescapeAscii_plain fun c hc => (h c hc).2]
  simp

end Docblock.Grammar

namespace Docblock.Automaton.Fragment

open Token Grammar

variable {fr : Fragment} {file : Option String} {v u : Nonterminal} {ts us : List Token} {i : Nat}
  {t q r : Token} {x y : Except Fault Tree}

/-- A nonterminal behind which nothing follows. -/
theorem Gives.last {x : Except Fault u.Value} (h : fr.Gives file u ts x) :
    fr.Derives file [.n u] ts (x.map (·, ())) := by
  have hd := h.before .nil
  rw [List.append_nil] at hd
  cases x <;> exact hd

/-- A production with one nonterminal on its right side. -/
theorem Gives.lift {x : Except Fault u.Value} (i : Nat) {f : u.Value → v.Value} (hi : i ∈ fr.rules)
    (hp : productions[i]? = some (rule v [.n u] f)) (h : fr.Gives file u ts x) :
    fr.Gives file v ts (x.map f) := by
  have hd := Derives.rule hi hp h.last
  cases x <;> exact hd

/-- A production with one token on its right side. -/
theorem gives_token {k : Kind} (i : Nat) {f : Token → v.Value} (hi : i ∈ fr.rules)
    (hp : productions[i]? = some (rule v [.t k] f)) (hk : t.kind = k) :
    fr.Gives file v [t] (.ok (f t)) :=
  Derives.rule hi hp (.token hk .nil)

set_option maxRecDepth 4000

theorem gives_empty : literals.Gives file .empty [] (.ok ()) :=
  Derives.rule (i := Reduction.empty) (by decide) rfl .nil

/-- A source of one statement. -/
theorem gives_source (h : literals.Gives file .topStatement ts x) :
    literals.Gives file .topStatements ts (x.map ([·])) := by
  have hnone : literals.Gives file .topStatements [] (.ok []) :=
    gives_empty.lift Reduction.statementsNone (by decide) rfl
  have hd := Derives.rule (i := Reduction.statementsMore) (by decide) rfl (hnone.before h.last)
  cases x <;> exact hd

theorem gives_statement (h : literals.Gives file .statement ts x) :
    literals.Gives file .topStatement ts x := by
  have hd := h.lift (v := .topStatement) Reduction.topStatement (by decide) rfl
  cases x <;> exact hd

/-- An expression as a statement. -/
theorem gives_expression (h : literals.Gives file .expr ts x) (ht : t.kind = .semi) :
    literals.Gives file .topStatement (ts ++ [t]) x := by
  apply gives_statement
  have hd := Derives.rule (i := Reduction.exprStatement) (by decide) rfl (h.before (.token ht .nil))
  cases x <;> exact hd

theorem gives_return (hr : r.kind = .kwReturn) (h : literals.Gives file .expr ts x)
    (ht : t.kind = .semi) : literals.Gives file .topStatement (r :: (ts ++ [t]))
      (x.map fun e => node r.line .returnValue [e]) := by
  apply gives_statement
  have hd := Derives.rule (i := Reduction.returnValue) (by decide) rfl
    (.token hr (h.before (.token ht .nil)))
  cases x <;> exact hd

theorem gives_throw (hr : r.kind = .kwThrow) (h : literals.Gives file .expr ts x)
    (ht : t.kind = .semi) : literals.Gives file .topStatement (r :: (ts ++ [t]))
      (x.map fun e => node r.line .throwError [e]) := by
  apply gives_statement
  have hd := Derives.rule (i := Reduction.throwValue) (by decide) rfl
    (.token hr (h.before (.token ht .nil)))
  cases x <;> exact hd

theorem gives_constant {c n e : Token} (hc : c.kind = .kwConst) (hn : n.kind = .ident)
    (he : e.kind = .equals) (h : literals.Gives file .staticScalar ts x) (ht : t.kind = .semi) :
    literals.Gives file .topStatement (c :: n :: e :: (ts ++ [t])) (x.map fun a =>
      node c.line .constantDeclarations
        [.list [node n.line .constantDeclaration [.text n.text, a]]]) := by
  have hone := Derives.rule (i := Reduction.constant) (by decide) rfl (.token hn (.token he h.last))
  have hmany := hone.lift (v := .constantDeclarations) Reduction.constantsOne (by decide) rfl
  have hd := Derives.rule (i := Reduction.constants) (by decide) rfl
    (.token hc (hmany.before (.token ht .nil)))
  simp only [List.cons_append] at hd
  cases x <;> exact hd

theorem gives_scalar (h : literals.Gives file .scalar ts x) : literals.Gives file .expr ts x := by
  have hd := h.lift (v := .expr) Reduction.exprScalar (by decide) rfl
  cases x <;> exact hd

/-- Interpolated text between quotes. -/
theorem gives_quoted (hq : q.kind = .quote) (h : literals.Gives file .encapsList ts x)
    (hr : r.kind = .quote) : literals.Gives file .expr (q :: (ts ++ [r])) x := by
  apply gives_scalar
  have hd := Derives.rule (i := Reduction.quoted) (by decide) rfl
    (.token hq (h.before (.token hr .nil)))
  cases x <;> exact hd

/-- Interpolated text between a label and its end. -/
theorem gives_heredoc (hq : q.kind = .startHeredoc) (h : literals.Gives file .encapsList ts x)
    (hr : r.kind = .endHeredoc) : literals.Gives file .expr (q :: (ts ++ [r])) x := by
  apply gives_scalar
  have hd := Derives.rule (i := Reduction.heredoc) (by decide) rfl
    (.token hq (h.before (.token hr .nil)))
  cases x <;> exact hd

theorem gives_noPart : literals.Gives file .encapsList [] (.ok (.text "")) :=
  gives_empty.lift Reduction.partsNone (by decide) rfl

theorem gives_textPart (h : literals.Gives file .encapsList ts x) (ht : t.kind = .encapsed) :
    literals.Gives file .encapsList (ts ++ [t])
      (x.bind fun before => (unescape t.text).map (interpolate t.line before)) := by
  have hd := Derives.rule (i := Reduction.partsText) (by decide) rfl (h.before (.token ht .nil))
  cases x <;> exact hd

/-- A part without escapes stands for itself. -/
theorem gives_plainPart {before : Tree} (h : literals.Gives file .encapsList ts (.ok before))
    (ht : t.kind = .encapsed) (hplain : ∀ c ∈ t.text.toList, c.toNat < 0x80 ∧ c ≠ '\\') :
    literals.Gives file .encapsList (ts ++ [t])
      (.ok (interpolate t.line before (.text t.text))) := by
  have hd := gives_textPart h ht
  rw [unescape_plain hplain] at hd
  exact hd

theorem gives_varPart (h : literals.Gives file .encapsList ts x)
    (hv : literals.Gives file .encapsVar us y) :
    literals.Gives file .encapsList (ts ++ us)
      (x.bind fun before => y.map (interpolate 0 before)) := by
  have hd := Derives.rule (i := Reduction.partsVar) (by decide) rfl (h.before hv.last)
  cases x <;> cases y <;> exact hd

/-- The value of a variable. -/
def variableNode (t : Token) : Tree := node t.line .var [.text t.text]

theorem gives_simpleVar (ht : t.kind = .var) :
    literals.Gives file .encapsVar [t] (.ok (variableNode t)) :=
  gives_token Reduction.partVar (by decide) rfl ht

/-- A variable and a property of it, without braces. -/
theorem gives_simpleProperty {o p : Token} (ht : t.kind = .var) (ho : o.kind = .objectOperator)
    (hp : p.kind = .ident) : literals.Gives file .encapsVar [t, o, p]
      (.ok (node o.line .objectProperty [variableNode t, .text p.text])) :=
  Derives.rule (i := Reduction.partProperty) (by decide) rfl
    (.token ht (.token ho (.token hp .nil)))

/-- A name between braces behind a dollar sign. -/
theorem gives_dollarName (hq : q.kind = .dollarCurly) (ht : t.kind = .varName)
    (hr : r.kind = .rightBrace) : literals.Gives file .encapsVar [q, t, r]
      (.ok (node t.line .var [.text ("$" ++ t.text)])) := by
  have hname : literals.Gives file .scalar [t] (.ok (node t.line .var [.text ("$" ++ t.text)])) :=
    gives_token Reduction.varName (by decide) rfl ht
  exact Derives.rule (i := Reduction.partDollarCurly) (by decide) rfl
    (.token hq ((gives_scalar hname).before (.token hr .nil)))

/-- A variable before it is known whether a property of it follows. -/
theorem gives_base (ht : t.kind = .var) :
    literals.Gives file .baseWithCalls [t] (.ok (variableNode t)) := by
  have hcompound : literals.Gives file .compoundVar [t] (.ok (variableNode t)) :=
    gives_token Reduction.compoundVar (by decide) rfl ht
  have href := hcompound.lift (v := .referenceVar) Reduction.referenceVar (by decide) rfl
  have hindirect := href.lift (v := .indirectVar) Reduction.indirectVar (by decide) rfl
  exact (hindirect.lift (v := .baseVar) Reduction.baseVar (by decide) rfl).lift
    Reduction.baseWithCalls (by decide) rfl

theorem gives_variable (ht : t.kind = .var) :
    literals.Gives file .varExpr [t] (.ok (variableNode t)) :=
  (gives_base ht).lift Reduction.varExpr (by decide) rfl

/-- A variable and a property of it. -/
theorem gives_property {o p : Token} (ht : t.kind = .var) (ho : o.kind = .objectOperator)
    (hp : p.kind = .ident) : literals.Gives file .varExpr [t, o, p]
      (.ok (node o.line .objectProperty [variableNode t, .text p.text])) := by
  have hname : literals.Gives file .propertyName [p] (.ok (.text p.text)) :=
    gives_token Reduction.propertyName (by decide) rfl hp
  have hnoIndex : literals.Gives file .dimensions [] (.ok []) :=
    gives_empty.lift Reduction.dimensionsNone (by decide) rfl
  have hproperty : literals.Gives file .objectProperty [p] (.ok ⟨.text p.text, []⟩) :=
    Derives.rule (i := Reduction.objectProperty) (by decide) rfl
      (hname.before (hnoIndex.before .nil))
  have hnoCall : literals.Gives file .methodArguments [] (.ok none) :=
    gives_empty.lift Reduction.methodArgumentsNone (by decide) rfl
  have hnoMore : literals.Gives file .properties [] (.ok []) :=
    gives_empty.lift Reduction.propertiesNone (by decide) rfl
  exact Derives.rule (i := Reduction.varProperty) (by decide) rfl ((gives_base ht).before
    (.token ho (hproperty.before (hnoCall.before (hnoMore.before .nil)))))

/-- A variable or a property of it as an expression. -/
theorem gives_varExpr (h : literals.Gives file .varExpr ts x) :
    literals.Gives file .expr ts x := by
  have hd := h.lift (v := .expr) Reduction.exprVar (by decide) rfl
  cases x <;> exact hd

theorem gives_braced (hq : q.kind = .curlyOpen) (h : literals.Gives file .varExpr ts x)
    (hr : r.kind = .rightBrace) : literals.Gives file .encapsVar (q :: (ts ++ [r])) x := by
  have hd := Derives.rule (i := Reduction.partCurly) (by decide) rfl
    (.token hq (h.before (.token hr .nil)))
  cases x <;> exact hd

theorem gives_bracedVar (hq : q.kind = .curlyOpen) (ht : t.kind = .var)
    (hr : r.kind = .rightBrace) :
    literals.Gives file .encapsVar [q, t, r] (.ok (variableNode t)) :=
  gives_braced hq (gives_variable ht) hr

theorem gives_bracedProperty {o p : Token} (hq : q.kind = .curlyOpen) (ht : t.kind = .var)
    (ho : o.kind = .objectOperator) (hp : p.kind = .ident) (hr : r.kind = .rightBrace) :
    literals.Gives file .encapsVar [q, t, o, p, r]
      (.ok (node o.line .objectProperty [variableNode t, .text p.text])) :=
  gives_braced hq (gives_property ht ho hp) hr

/-- The tokens of a text between two marks, with a semicolon behind it. -/
theorem enclosed_tokens {opening closing : Kind × String} {ws : List (Kind × String)}
    (h : ts.map Token.word = opening :: (ws ++ [closing, (Kind.semi, ";")])) :
    ∃ (q : Token) (us : List Token) (r s : Token), ts = q :: (us ++ [r]) ++ [s] ∧
      us.map Token.word = ws ∧ q.kind = opening.1 ∧ r.kind = closing.1 ∧ s.kind = .semi := by
  obtain ⟨q, ts, rfl, hq, hts⟩ := List.map_eq_cons_iff.mp h
  obtain ⟨us, ts, rfl, hus, hts⟩ := List.map_eq_append_iff.mp hts
  obtain ⟨r, ts, rfl, hr, hts⟩ := List.map_eq_cons_iff.mp hts
  obtain ⟨s, rfl, hs⟩ := List.map_eq_singleton_iff.mp hts
  exact ⟨q, us, r, s, by simp, hus, congrArg Prod.fst hq, congrArg Prod.fst hr,
    congrArg Prod.fst hs⟩

/-- A text whose tokens make up a source of a fragment is read into its value. -/
theorem parse_reads (hfr : fr.Fits) (hstart : fr.allows 0 .topStatements [none] = true)
    {text : List Char} {ws : List (Kind × String)} {v : Lexer.View}
    (h : (Lexer.View.ofText text).Reads ws v) (hv : v.rest = []) :
    ∃ ts, ts.map Token.word = ws ∧ ∀ file x, fr.Gives file .topStatements ts x →
      ((Filter.fresh []).parse file text).1 = outcome x := by
  have hinside : ((Filter.fresh []).input text).lexer.Inside := Lexer.inside_input _ text
  obtain ⟨hts, he⟩ := h.stream hinside hv
  refine ⟨_, hts, fun file x hx => ?_⟩
  obtain ⟨d, hw, hd, rfl⟩ := hx
  exact parse_derivation hfr hstart d hw hd.symm he

theorem parse_view {text : List Char} {ws : List (Kind × String)} {v : Lexer.View}
    (h : (Lexer.View.ofText text).Reads ws v) (hv : v.rest = []) :
    ∃ ts, ts.map Token.word = ws ∧ ∀ file x, literals.Gives file .topStatements ts x →
      ((Filter.fresh []).parse file text).1 = outcome x :=
  parse_reads literals_fits (by decide) h hv

end Docblock.Automaton.Fragment
