import Docblock.Proofs.Automaton.Literals
import Docblock.Proofs.Grammar.Balance
import Docblock.Proofs.Grammar.Making
import Docblock.Proofs.Token.Semicolon

/-! Values that are known before a source is run: as the value of a constant and as an expression
they mean the same. -/
namespace Docblock.Grammar

open Token Automaton Automaton.Fragment

variable {file : Option String} {ss : List Symbol} {ts : List Token}

/-- What a static scalar is made of. -/
def staticParts : List Nonterminal :=
  [.staticScalar, .staticPairs, .staticPairs1, .commonScalar, .namespaceName, .possibleComma,
    .empty]

/-- Whether a symbol can occur in a static scalar. -/
def Symbol.isStatic : Symbol → Bool
  | .t k => staticKinds.contains k
  | .n v => staticParts.contains v

/-- The parts of static scalars are made of such parts, by productions of the fragment for
literals. -/
theorem static_productions : (productions.zipIdx.all fun e =>
    !staticParts.contains e.1.lhs ||
      literalRules.contains e.2 && e.1.rhs.all Symbol.isStatic) = true := by
  decide +kernel

theorem static_production {p : Production} (hp : p ∈ productions)
    (hs : Symbol.isStatic (.n p.lhs) = true) :
    (∃ i ∈ literalRules, productions[i]? = some p) ∧ ∀ s ∈ p.rhs, s.isStatic = true := by
  obtain ⟨i, hi⟩ := List.mem_iff_getElem?.mp hp
  have hmem : (p, i) ∈ productions.zipIdx := List.mem_zipIdx_iff_getElem?.mpr hi
  have hcheck := List.all_eq_true.mp static_productions _ hmem
  simp only [Symbol.isStatic] at hs
  simp only [hs, Bool.not_true, Bool.false_or, Bool.and_eq_true, List.contains_eq_mem,
    decide_eq_true_eq, List.all_eq_true] at hcheck
  exact ⟨⟨i, hcheck.1, hi⟩, hcheck.2⟩

theorem Forest.static_within (forest : Forest ss) (hss : ∀ s ∈ ss, s.isStatic = true) :
    forest.Within literalRules ∧ ∀ t ∈ forest.yield, t.kind ∈ staticKinds := by
  induction forest with
  | nil => exact ⟨trivial, by simp [yield]⟩
  | token t rest ih =>
    obtain ⟨ht, hrest⟩ := List.forall_mem_cons.mp hss
    obtain ⟨hwithin, hkinds⟩ := ih hrest
    exact ⟨hwithin, List.forall_mem_cons.mpr ⟨by simpa [Symbol.isStatic] using ht, hkinds⟩⟩
  | node p hp children rest ihc ihr =>
    obtain ⟨hs, hrest⟩ := List.forall_mem_cons.mp hss
    obtain ⟨hrule, hrhs⟩ := static_production hp hs
    obtain ⟨hcw, hck⟩ := ihc hrhs
    obtain ⟨hrw, hrk⟩ := ihr hrest
    exact ⟨⟨hrule, hcw, hrw⟩, List.forall_mem_append.mpr ⟨hck, hrk⟩⟩

/-- Some tokens and the values of some symbols, put together from those of each nonterminal, where
`J` holds of the tokens and the value of each. -/
def Gathered (J : (v : Nonterminal) → List Token → Except Fault v.Value → Prop) :
    (ss : List Symbol) → List Token → Except Fault (Values ss) → Prop
  | [], ts, x => ts = [] ∧ x = .ok ()
  | .t k :: ss, ts, x => ∃ t us y, t.kind = k ∧ Gathered J ss us y ∧ ts = t :: us ∧
      x = y.map (t, ·)
  | .n v :: ss, ts, x => ∃ us z us' y, J v us z ∧ Gathered J ss us' y ∧ ts = us ++ us' ∧
      x = z.bind fun a => y.map (a, ·)

variable {J : (v : Nonterminal) → List Token → Except Fault v.Value → Prop}

/-- What a production makes of what `J` holds of, it holds of too. -/
def KeepsStatic (file : Option String)
    (J : (v : Nonterminal) → List Token → Except Fault v.Value → Prop) (p : Production) : Prop :=
  ∀ ts x, Gathered J p.rhs ts x → J p.lhs ts (x.bind (p.action file).apply)

theorem Forest.gathered (hJ : ∀ p ∈ productions, Symbol.isStatic (.n p.lhs) = true →
      KeepsStatic file J p) (forest : Forest ss) (hss : ∀ s ∈ ss, s.isStatic = true) :
    Gathered J ss forest.yield (forest.value file) := by
  induction forest with
  | nil => exact ⟨rfl, rfl⟩
  | token t rest ih =>
    exact ⟨t, _, _, rfl, ih (List.forall_mem_cons.mp hss).2, rfl, rfl⟩
  | node p hp children rest ihc ihr =>
    obtain ⟨hs, hrest⟩ := List.forall_mem_cons.mp hss
    obtain ⟨-, hrhs⟩ := static_production hp hs
    refine ⟨_, _, _, _, hJ p hp hs _ _ (ihc hrhs), ihr hrest, rfl, ?_⟩
    simp only [value]
    cases children.value file with
    | error => rfl
    | ok vs =>
      simp only [Except.bind]
      cases (p.action file).apply vs <;> rfl

theorem Gathered.derives {x : Except Fault (Values ss)}
    (h : Gathered (literals.Gives file) ss ts x) : literals.Derives file ss ts x := by
  induction ss generalizing ts with
  | nil =>
    obtain ⟨rfl, rfl⟩ := h
    exact .nil
  | cons s ss ih =>
    cases s with
    | t k =>
      obtain ⟨t, us, y, hk, hus, rfl, rfl⟩ := h
      exact .token hk (ih hus)
    | n v =>
      obtain ⟨us, z, us', y, hz, hus, rfl, rfl⟩ := h
      exact hz.before (ih hus)

/-- A part of a static scalar is also one of an expression, with the same value. -/
def Translates (file : Option String) :
    (v : Nonterminal) → List Token → Except Fault v.Value → Prop
  | .staticScalar, ts, x => literals.Gives file .expr ts x
  | .staticPairs, ts, x => literals.Gives file .arrayPairs ts x
  | .staticPairs1, ts, x => literals.Gives file .arrayPairs1 ts x
  | v, ts, x => literals.Gives file v ts x

/-- The parts that have another name in an expression. -/
def renamedParts : List Nonterminal := [.staticScalar, .staticPairs, .staticPairs1]

theorem translates_same {v : Nonterminal} (h : v ∉ renamedParts) :
    Translates file v = literals.Gives file v := by
  funext ts x
  unfold Translates
  split
  · simp [renamedParts] at h
  · simp [renamedParts] at h
  · simp [renamedParts] at h
  · rfl

theorem Gathered.same {x : Except Fault (Values ss)} (h : Gathered (Translates file) ss ts x)
    (hss : ∀ v ∈ renamedParts, .n v ∉ ss) : Gathered (literals.Gives file) ss ts x := by
  induction ss generalizing ts with
  | nil => exact h
  | cons s ss ih =>
    have hrest : ∀ v ∈ renamedParts, Symbol.n v ∉ ss :=
      fun v hv hmem => hss v hv (List.mem_cons_of_mem s hmem)
    cases s with
    | t k =>
      obtain ⟨t, us, y, hk, hus, hts, hx⟩ := h
      exact ⟨t, us, y, hk, ih hus hrest, hts, hx⟩
    | n v =>
      obtain ⟨us, z, us', y, hz, hus, hts, hx⟩ := h
      rw [translates_same fun hv => hss v hv List.mem_cons_self] at hz
      exact ⟨us, z, us', y, hz, ih hus hrest, hts, hx⟩

/-- The parts that keep their name in an expression are made of such parts. -/
theorem unrenamed_productions : (productions.all fun p => !staticParts.contains p.lhs ||
    renamedParts.contains p.lhs || renamedParts.all fun v => !p.rhs.contains (.n v)) = true := by
  decide +kernel

theorem mem_staticScalarRules :
    ∀ p ∈ productions, p.lhs ∈ renamedParts → p ∈ staticScalarRules := by
  have hcheck : ∀ {ps : List Production}, (ps.all fun p => !renamedParts.contains p.lhs) = true →
      ∀ p ∈ ps, p.lhs ∈ renamedParts → p ∈ staticScalarRules := by
    intro ps hps p hp hlhs
    have := List.all_eq_true.mp hps p hp
    simp [hlhs] at this
  refine forall_productions (hcheck (by decide)) (hcheck (by decide))
    (hcheck (by decide)) ?_
  rw [List.forall_mem_append, List.forall_mem_append]
  exact ⟨⟨hcheck (by decide), fun p hp _ => hp⟩, hcheck (by decide)⟩

set_option maxRecDepth 4000

/-- Every production for a static scalar has a counterpart for an expression. -/
theorem translates_staticScalarRules :
    ∀ p ∈ staticScalarRules, KeepsStatic file (Translates file) p := by
  simp only [staticScalarRules, nameRules, List.forall_mem_append, List.forall_mem_cons,
    List.not_mem_nil, false_imp_iff, implies_true, and_true]
  refine ⟨⟨⟨?_, ?_, ?_⟩, ?_, ?_, ?_⟩, ?_, ?_, ?_, ?_, ?_, ?_, ?_, ?_, ?_, ?_, ?_⟩ <;> intro ts x h
  · exact gives_scalar (Derives.rule (i := Reduction.scalarCommon) (by decide) rfl
    (Gathered.derives h))
  · obtain ⟨q, _, _, hq, ⟨r, _, _, hr, ⟨rfl, rfl⟩, rfl, rfl⟩, rfl, rfl⟩ := h
    exact gives_quoted hq gives_noPart hr
  · obtain ⟨q, _, _, hq, ⟨s, _, _, hs, hlast, rfl, rfl⟩, rfl, rfl⟩ := h
    obtain ⟨r, _, _, hr, ⟨rfl, rfl⟩, rfl, rfl⟩ := hlast
    have hpart : literals.Gives file .encapsList [s] (unescape s.text) := by
      have hnone : literals.Gives file .encapsList [] (.ok (.text "")) := gives_noPart
      have hd := gives_textPart hnone hs
      cases hread : unescape s.text <;> rw [hread] at hd <;> exact hd
    exact gives_quoted hq hpart hr
  · exact gives_scalar (Derives.rule (i := Reduction.constantName) (by decide) rfl
    (Gathered.derives h))
  · exact gives_scalar (Derives.rule (i := Reduction.constantGlobalName) (by decide) rfl
    (Gathered.derives h))
  · exact gives_scalar (Derives.rule (i := Reduction.constantNamespaceName) (by decide) rfl
    (Gathered.derives h))
  · exact Derives.rule (i := Reduction.exprPlus) (by decide) rfl (Gathered.derives h)
  · exact Derives.rule (i := Reduction.exprMinus) (by decide) rfl (Gathered.derives h)
  · exact Derives.rule (i := Reduction.exprArray) (by decide) rfl (Gathered.derives h)
  · exact Derives.rule (i := Reduction.arrayNone) (by decide) rfl (Gathered.derives h)
  · exact Derives.rule (i := Reduction.arrayPairs) (by decide) rfl (Gathered.derives h)
  · exact Derives.rule (i := Reduction.arrayMoreValue) (by decide) rfl (Gathered.derives h)
  · exact Derives.rule (i := Reduction.arrayValue) (by decide) rfl (Gathered.derives h)
  · exact Derives.rule (i := Reduction.arrayMorePair) (by decide) rfl (Gathered.derives h)
  · exact Derives.rule (i := Reduction.arrayPair) (by decide) rfl (Gathered.derives h)
  · exact Derives.rule (i := Reduction.nameLonger) (by decide) rfl (Gathered.derives h)
  · exact Derives.rule (i := Reduction.name) (by decide) rfl (Gathered.derives h)

theorem translates_productions : ∀ p ∈ productions, Symbol.isStatic (.n p.lhs) = true →
    KeepsStatic file (Translates file) p := by
  intro p hp hs
  by_cases hlhs : p.lhs ∈ renamedParts
  · exact translates_staticScalarRules p (mem_staticScalarRules p hp hlhs)
  · intro ts x h
    obtain ⟨⟨i, hi, hpi⟩, -⟩ := static_production hp hs
    have hrhs : ∀ v ∈ renamedParts, Symbol.n v ∉ p.rhs := by
      have hcheck := List.all_eq_true.mp unrenamed_productions p hp
      have hmem : p.lhs ∈ staticParts := by simpa [Symbol.isStatic] using hs
      simpa [hmem, hlhs] using hcheck
    rw [translates_same hlhs]
    exact Derives.rule hi hpi (h.same hrhs).derives

/-- A static scalar is an expression with the same value. -/
theorem Derivation.gives_expr (d : Derivation .staticScalar) :
    literals.Gives file .expr d.yield (d.result file) := by
  have hstatic : ∀ s ∈ [Symbol.n .staticScalar], s.isStatic = true := by decide
  obtain ⟨us, z, us', y, hz, ⟨rfl, rfl⟩, hyield, hvalue⟩ :=
    Forest.gathered translates_productions d hstatic
  rw [hyield, List.append_nil, Derivation.result, hvalue]
  cases z <;> exact hz

end Docblock.Grammar

namespace Docblock

open Token Grammar Automaton Automaton.Fragment Docblock.Filter

namespace Lexer.View

/-- A source that declares a constant, up to the blank before its value. -/
theorem reads_constant (cs : List Char) : Reads (ofText ("<?php const X =".toList ++ ' ' :: cs))
    [(.kwConst, "const"), (.ident, "X"), (.equals, "=")]
    ⟨.code, [], none, some '=', ' ' :: cs⟩ := by
  have hconst : next ⟨.code, [], none, some ' ', "const".toList ++ (" X =".toList ++ ' ' :: cs)⟩ =
      some ((.kwConst, "const"), ⟨.code, [], none, some 't', " X =".toList ++ ' ' :: cs⟩) :=
    next_word _ _ (by decide) rfl
  have hspace : next ⟨.code, [], none, some 't', " X =".toList ++ ' ' :: cs⟩ =
      some ((.whitespace, " "), ⟨.code, [], none, some ' ', "X =".toList ++ ' ' :: cs⟩) := rfl
  have hname : next ⟨.code, [], none, some ' ', "X".toList ++ (" =".toList ++ ' ' :: cs)⟩ =
      some ((.ident, "X"), ⟨.code, [], none, some 'X', " =".toList ++ ' ' :: cs⟩) :=
    next_word _ _ (by decide) rfl
  have hspace' : next ⟨.code, [], none, some 'X', " =".toList ++ ' ' :: cs⟩ =
      some ((.whitespace, " "), ⟨.code, [], none, some ' ', '=' :: ' ' :: cs⟩) := rfl
  have hequals : next ⟨.code, [], none, some ' ', '=' :: ' ' :: cs⟩ =
      some ((.equals, "="), ⟨.code, [], none, some '=', ' ' :: cs⟩) := rfl
  exact .skip (next_openTag ("const X =".toList ++ ' ' :: cs)) (by decide)
    (.hand hconst (by decide) (.skip hspace (by decide) (.hand hname (by decide)
      (.skip hspace' (by decide) (.hand hequals (by decide) (.refl _))))))

end Lexer.View

variable {w : List Char} {d : Derivation .staticScalar}

/-- A static scalar that is read as code leaves the lexer in code. -/
theorem mode_of_static (ht : (inCode w).stream.tokens = d.yield)
    (he : (inCode w).stream.error? = none) : (inCode w).stream.final.lexer.mode = .code := by
  obtain ⟨g, l, hr, hend, hfinal⟩ := stream_reads he
  rw [ht] at hr
  have hplain := reads_plain hr (d.static_within (by decide)).2 (.inl rfl) rfl
  have hleads : Config.leads [(.code, [])] [.n .staticScalar] (inCode w).modes = true := rfl
  rw [← onto_nil (inCode w)] at hr
  obtain ⟨g', -, rfl, hmodes⟩ := Forest.reads_leads d hr hleads
  rw [onto_nil] at hplain hend
  rw [hfinal, Lexer.next_finished hend]
  obtain hcode | hquoted := hplain
  · exact congrArg Prod.fst hcode
  · -- Between quotes the modes would not be those at the end of a static scalar.
    rw [List.mem_singleton, Filter.modes, hquoted] at hmodes
    cases hmodes

/-- The tokens of a static scalar behind a header, and what comes of the source that has them. -/
theorem parse_static {header : List Char} {ws : List (Kind × String)} {b : Option Char}
    (ht : (inCode w).stream.tokens = d.yield) (he : (inCode w).stream.error? = none)
    (hbreak : '\n' ∉ header)
    (hheader : (Lexer.View.ofText (header ++ ' ' :: (w ++ [';']))).Reads ws
      ⟨.code, [], none, b, ' ' :: (w ++ [';'])⟩) :
    ∃ (hs : List Token) (k : Int) (s : Token), hs.map Token.word = ws ∧ s.kind = .semi ∧ ∀ file x,
      literals.Gives file .topStatement (hs ++ ((d.shift k).yield ++ [s])) x →
        ((Filter.fresh []).parse file (header ++ ' ' :: (w ++ [';']))).1 =
          outcome (x.map ([·])) := by
  have hkinds : ∀ t ∈ (inCode w).stream.tokens, t.kind ∈ staticKinds :=
    ht ▸ (d.static_within (by decide)).2
  obtain ⟨hs, k, s, hwords, hword, herror, htokens⟩ :=
    stream_beside (f := (Filter.fresh []).input (header ++ ' ' :: (w ++ [';'])))
      (Lexer.inside_input _ _) rfl rfl hbreak hheader he hkinds (mode_of_static ht he)
  refine ⟨hs, k, s, hwords, congrArg Prod.fst hword, fun file x hx => ?_⟩
  obtain ⟨e, hwithin, hyield, hresult⟩ := gives_source hx
  rw [← hresult]
  refine parse_derivation literals_fits (by decide) e hwithin ?_ herror
  rw [hyield, htokens, ht, Forest.yield_shift]

/-- A source that declares a constant with some value. -/
def constantSource (w : List Char) : List Char := "<?php const X = ".toList ++ (w ++ [';'])

theorem constantSource_eq (w : List Char) :
    constantSource w = "<?php const X =".toList ++ ' ' :: (w ++ [';']) := by
  unfold constantSource
  rw [String.toList_ofList, String.toList_ofList]
  rfl

/-- A source that returns some value. -/
def returnSource (w : List Char) : List Char := "<?php return ".toList ++ (w ++ [';'])

theorem returnSource_eq (w : List Char) :
    returnSource w = "<?php return".toList ++ ' ' :: (w ++ [';']) := by
  unfold returnSource
  rw [String.toList_ofList, String.toList_ofList]
  rfl

theorem parse_constantSource (ht : (inCode w).stream.tokens = d.yield)
    (he : (inCode w).stream.error? = none) : ∃ i j, ∀ file,
    ((fresh []).parse file (constantSource w)).1 = outcome ((d.result file).map fun t =>
      [node i .constantDeclarations [.list [node j .constantDeclaration [.text "X", t]]]]) := by
  obtain ⟨hs, k, s, hwords, hsemi, hparse⟩ :=
    parse_static ht he (by decide) (Lexer.View.reads_constant (w ++ [';']))
  obtain ⟨c, hs, rfl, hc, hs'⟩ := List.map_eq_cons_iff.mp hwords
  obtain ⟨n, hs, rfl, hn, hs'⟩ := List.map_eq_cons_iff.mp hs'
  obtain ⟨e, rfl, hequals⟩ := List.map_eq_singleton_iff.mp hs'
  refine ⟨c.line, n.line, fun file => ?_⟩
  have hvalue : literals.Gives file .staticScalar (d.shift k).yield (d.result file) :=
    ⟨d.shift k, ((d.shift k).static_within (by decide)).1, rfl, d.result_shift k⟩
  have hd := gives_constant (congrArg Prod.fst hc) (congrArg Prod.fst hn)
    (congrArg Prod.fst hequals) hvalue hsemi
  rw [constantSource_eq, hparse file _ hd]
  have hname : n.text = "X" := congrArg Prod.snd hn
  rw [hname]
  cases d.result file <;> rfl

theorem parse_returnSource (ht : (inCode w).stream.tokens = d.yield)
    (he : (inCode w).stream.error? = none) : ∃ l, ∀ file,
    ((fresh []).parse file (returnSource w)).1 =
      outcome ((d.result file).map fun t => [node l .returnValue [t]]) := by
  obtain ⟨hs, k, s, hwords, hsemi, hparse⟩ :=
    parse_static ht he (by decide) (Lexer.View.reads_return (w ++ [';']))
  obtain ⟨r, rfl, hr⟩ := List.map_eq_singleton_iff.mp hwords
  refine ⟨r.line, fun file => ?_⟩
  have hvalue : literals.Gives file .expr (d.shift k).yield (d.result file) :=
    d.result_shift k ▸ Derivation.gives_expr (d.shift k)
  have hd := gives_return (congrArg Prod.fst hr) hvalue hsemi
  rw [returnSource_eq, hparse file _ hd]
  cases d.result file <;> rfl

/-- A text that is a static scalar is also an expression. As the value of a constant and as what is
returned it is read into equal trees, or both sources stop at the fault of its derivation. -/
theorem static_scalar_agrees (file : Option String) (w : List Char) (d : Derivation .staticScalar)
    (ht : (inCode w).stream.tokens = d.yield) (he : (inCode w).stream.error? = none) :
    (∃ i j l t u, d.result file = .ok t ∧ t.same u = true ∧
      ((fresh []).parse file (constantSource w)).1 = .ok [node i .constantDeclarations
        [.list [node j .constantDeclaration [.text "X", t]]]] ∧
      ((fresh []).parse file (returnSource w)).1 = .ok [node l .returnValue [u]]) ∨
    ∃ f, d.result file = .error f ∧
      ((fresh []).parse file (constantSource w)).1 = .error (.fault f) ∧
      ((fresh []).parse file (returnSource w)).1 = .error (.fault f) := by
  obtain ⟨i, j, hconstant⟩ := parse_constantSource ht he
  obtain ⟨l, hreturn⟩ := parse_returnSource ht he
  rw [hconstant, hreturn]
  cases hd : d.result file with
  | error f => exact .inr ⟨f, rfl, rfl, rfl⟩
  | ok t =>
    have hproper := (Derivation.made d hd t List.mem_cons_self).proper
    exact .inl ⟨i, j, l, t, t, rfl, Tree.same_self t hproper, rfl, rfl⟩

/-- A list with a key, a sign and text between quotes, over two lines. -/
def signedList : List Char := " array('k' => -A,\n \"a\")".toList

theorem signedList_tokens : (inCode signedList).stream.error? = none ∧
    (inCode signedList).stream.tokens = [
      ⟨.kwArray, "array", 1, 1⟩, ⟨.leftParen, "(", 1, 6⟩, ⟨.singleQuoted, "'k'", 1, 7⟩,
      ⟨.doubleArrow, "=>", 1, 11⟩, ⟨.minus, "-", 1, 14⟩, ⟨.ident, "A", 1, 15⟩,
      ⟨.comma, ",", 1, 16⟩, ⟨.quote, "\"", 2, 19⟩, ⟨.encapsed, "a", 2, 20⟩,
      ⟨.quote, "\"", 2, 21⟩, ⟨.rightParen, ")", 2, 22⟩] := by
  unfold signedList
  rw [String.toList_ofList]
  decide

set_option maxRecDepth 4000 in
/-- The list is a static scalar with a value. -/
theorem signedList_derived : ∃ (d : Derivation .staticScalar) (t : Tree),
    (inCode signedList).stream.tokens = d.yield ∧ d.result none = .ok t := by
  have hkey : literals.Gives none .staticScalar [⟨.singleQuoted, "'k'", 1, 7⟩] (.ok _) :=
    (gives_token Reduction.singleQuoted (by decide) rfl rfl).lift Reduction.staticCommon
      (by decide) rfl
  have hname : literals.Gives none .staticScalar [⟨.ident, "A", 1, 15⟩] (.ok _) :=
    (gives_token Reduction.name (by decide) rfl rfl).lift Reduction.staticName (by decide) rfl
  have hsign : literals.Gives none .staticScalar _ (.ok _) :=
    Derives.rule (i := Reduction.staticMinus) (by decide) rfl
      (.token (t := ⟨.minus, "-", 1, 14⟩) rfl (hname.before .nil))
  have hpair : literals.Gives none .staticPairs1 _ (.ok _) :=
    Derives.rule (i := Reduction.staticPair) (by decide) rfl
      (hkey.before (.token (t := ⟨.doubleArrow, "=>", 1, 11⟩) rfl (hsign.before .nil)))
  have htext : literals.Gives none .staticScalar _ (unescape "a") :=
    Derives.rule (i := Reduction.staticQuoted) (by decide) rfl
      (.token (t := ⟨.quote, "\"", 2, 19⟩) rfl
      (.token (t := ⟨.encapsed, "a", 2, 20⟩) rfl (.token (t := ⟨.quote, "\"", 2, 21⟩) rfl .nil)))
  rw [unescape_plain (by simp)] at htext
  have hpairs : literals.Gives none .staticPairs1 _ (.ok _) :=
    Derives.rule (i := Reduction.staticMoreValue) (by decide) rfl
      (hpair.before (.token (t := ⟨.comma, ",", 1, 16⟩) rfl (htext.before .nil)))
  have hcomma : literals.Gives none .possibleComma [] (.ok ()) :=
    gives_empty.lift Reduction.commaNone (by decide) rfl
  have hlist : literals.Gives none .staticPairs _ (.ok _) :=
    Derives.rule (i := Reduction.staticPairs) (by decide) rfl (hpairs.before (hcomma.before .nil))
  have harray : literals.Gives none .staticScalar _ (.ok _) :=
    Derives.rule (i := Reduction.staticArray) (by decide) rfl
      (.token (t := ⟨.kwArray, "array", 1, 1⟩) rfl
      (.token (t := ⟨.leftParen, "(", 1, 6⟩) rfl
        (hlist.before (.token (t := ⟨.rightParen, ")", 2, 22⟩) rfl .nil))))
  obtain ⟨d, -, hyield, hresult⟩ := harray
  exact ⟨d, _, signedList_tokens.2.trans hyield.symm, hresult⟩

/-- The list is read into one tree, as the value of a constant and as what is returned. -/
theorem static_scalar_agrees_signedList :
    ∃ (d : Derivation .staticScalar) (i j l : Int) (t u : Tree),
      (inCode signedList).stream.tokens = d.yield ∧ (inCode signedList).stream.error? = none ∧
      d.result none = .ok t ∧ t.same u = true ∧
      ((fresh []).parse none (constantSource signedList)).1 = .ok [node i .constantDeclarations
        [.list [node j .constantDeclaration [.text "X", t]]]] ∧
      ((fresh []).parse none (returnSource signedList)).1 = .ok [node l .returnValue [u]] := by
  obtain ⟨d, t, ht, hd⟩ := signedList_derived
  have he := signedList_tokens.1
  obtain ⟨i, j, l, t', u, hagrees⟩ | ⟨f, hfault, -⟩ := static_scalar_agrees none signedList d ht he
  · exact ⟨d, i, j, l, t', u, ht, he, hagrees⟩
  · rw [hd] at hfault
    cases hfault

end Docblock
