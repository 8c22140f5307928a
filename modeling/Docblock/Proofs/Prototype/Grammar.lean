import Docblock.Proofs.Automaton.Literals
import Docblock.Proofs.Prototype.Tokens

/-! The part of the grammar for functions with simple parameters. The words of a prototype are read
into a function that matches it. -/
namespace Docblock.Automaton

open Token Grammar

open Reduction in
/-- The productions of the fragment: functions, their parameters, types, and default values. -/
def prototypeRules : List Nat :=
  [statementsMore, statementsNone, topFunction, innerNone, function, referenceNone, parametersMore,
    parametersOne, parametersNone, parameter, classParameter, arrayParameter, refParameter,
    classRefParameter, arrayRefParameter, parameterDefault, classParameterDefault,
    arrayParameterDefault, refParameterDefault, classRefParameterDefault, arrayRefParameterDefault,
    className, classGlobalName, classNamespaceName, classStatic, integer, staticCommon, staticName,
    staticGlobalName, staticNamespaceName, staticArray, staticNone, nameLonger, name, empty]

/-- What a name in a namespace starts with. -/
def nameStarts : List Kind := [.ident, .backslash, .kwNamespace]

def parameterStarts : List Kind :=
  [Kind.var, Kind.bitAnd, Kind.kwArray, Kind.kwStatic] ++ nameStarts

def prototypeStarts : Nonterminal → List Kind
  | .topStatements | .topStatement | .functionDeclaration => [.kwFunction]
  | .parameters => .comma :: parameterStarts
  | .parameter => parameterStarts
  | .className => .kwStatic :: nameStarts
  | .namespaceName => [.ident]
  | .staticScalar => [Kind.integer, Kind.kwArray] ++ nameStarts
  | .commonScalar => [.integer]
  | _ => []

def prototypeSilent : Nonterminal → Bool
  | .topStatements | .innerStatements | .isReference | .parameters | .staticPairs | .empty => true
  | _ => false

/-- The states in which a parameter is read. -/
def parameterStates : List Nat := [State.functionParen, State.parameterComma]

/-- The states in which a default value is read. -/
def valueStates : List Nat :=
  [State.varEquals, State.classVarEquals, State.arrayVarEquals, State.refVarEquals,
    State.classRefVarEquals, State.arrayRefVarEquals]

def functionSites : List Site :=
  let ends := [none, some .kwFunction]
  [⟨0, .topStatements, ends⟩, ⟨0, .empty, ends⟩, ⟨gathering, .topStatement, ends⟩,
    ⟨gathering, .functionDeclaration, ends⟩] ++
  sitesOf [State.functionWord] [.isReference, .empty] [.ident] ++
  sitesOf [State.functionBrace] [.innerStatements, .empty] [.rightBrace]

def parameterSites : List Site :=
  sitesOf [State.functionParen] [.parameters, .empty] [.rightParen, .comma] ++
  sitesOf parameterStates [.parameter] [.rightParen, .comma] ++
  sitesOf parameterStates [.className] [.var, .bitAnd] ++
  sitesOf (State.newBackslash :: State.newNamespaceBackslash :: parameterStates) [.namespaceName]
    [.var, .bitAnd, .backslash]

def defaultSites : List Site :=
  sitesOf valueStates [.staticScalar, .commonScalar] [.rightParen, .comma] ++
  sitesOf (State.staticBackslash :: State.staticNamespaceBackslash :: valueStates) [.namespaceName]
    [.rightParen, .comma, .backslash] ++
  sitesOf [State.staticArrayParen] [.staticPairs, .empty] [.rightParen]

def prototypes : Fragment :=
  ⟨prototypeRules, prototypeStarts, prototypeSilent,
    functionSites ++ parameterSites ++ defaultSites⟩

theorem prototypes_fits : prototypes.Fits := by
  unfold Fragment.Fits
  decide +kernel

namespace Fragment

variable {file : Option String} {ts us : List Token} {t : Token} {k : Kind} {s : String}

set_option maxRecDepth 4000

theorem exists_token (h : t.word = (k, s)) : ∃ line pos, t = ⟨k, s, line, pos⟩ := by
  obtain ⟨rfl, rfl⟩ := Prod.mk.inj h
  exact ⟨t.line, t.pos, rfl⟩

theorem backslash_append (cs : List Char) :
    "\\" ++ String.ofList cs = String.ofList ('\\' :: cs) :=
  (String.ofList_append : String.ofList (['\\'] ++ cs) = _).symm

theorem gives_nothing : prototypes.Gives file .empty [] (.ok ()) :=
  Derives.rule (i := Reduction.empty) (by decide) rfl .nil

theorem gives_path (p : Path) (h : ts.map Token.word = p.words) :
    prototypes.Gives file .namespaceName ts (.ok (String.ofList p.chars)) := by
  induction p generalizing ts with
  | single w =>
    obtain ⟨t, rfl, ht⟩ := List.map_eq_singleton_iff.mp h
    obtain ⟨line, pos, rfl⟩ := exists_token ht
    exact gives_token Reduction.name (by decide) rfl rfl
  | member p w ih =>
    obtain ⟨us, vs, rfl, hus, hvs⟩ := List.map_eq_append_iff.mp h
    simp only [List.map_eq_cons_iff, List.map_eq_nil_iff] at hvs
    obtain ⟨b, -, rfl, hb, t, -, rfl, ht, rfl⟩ := hvs
    obtain ⟨_, _, rfl⟩ := exists_token hb
    obtain ⟨_, _, rfl⟩ := exists_token ht
    rw [Path.chars, String.ofList_append, ← backslash_append, ← String.append_assoc]
    exact Derives.rule (i := Reduction.nameLonger) (by decide) rfl
      ((ih hus).before (.token rfl (.token rfl .nil)))

/-- The three productions for a name in a namespace, wherever they stand. -/
theorem gives_qualifiedName (file : Option String) {v : Nonterminal}
    {value : Int → String → v.Value} (i : Nat)
    (hi : ∀ j < 3, i + j ∈ prototypes.rules)
    (hp : ∀ j < 3, productions[i + j]? = (nameRules v value)[j]?) (n : QualifiedName)
    (h : ts.map Token.word = n.words) :
    ∃ line, prototypes.Gives file v ts (.ok (value line n.text)) := by
  cases n with
  | relative p => exact ⟨_, (gives_path p h).lift i (hi 0 (by decide)) (hp 0 (by decide))⟩
  | absolute p =>
    obtain ⟨b, us, rfl, hb, hus⟩ := List.map_eq_cons_iff.mp h
    obtain ⟨line, pos, rfl⟩ := exists_token hb
    refine ⟨line, ?_⟩
    rw [QualifiedName.text, QualifiedName.chars, ← backslash_append]
    exact Derives.rule (hi 1 (by decide)) (hp 1 (by decide))
      (.token (t := ⟨.backslash, "\\", line, pos⟩) rfl (gives_path p hus).last)
  | current w p =>
    obtain ⟨a, us, rfl, ha, hus⟩ := List.map_eq_cons_iff.mp h
    obtain ⟨b, vs, rfl, hb, hvs⟩ := List.map_eq_cons_iff.mp hus
    obtain ⟨line, pos, rfl⟩ := exists_token ha
    obtain ⟨line', pos', rfl⟩ := exists_token hb
    refine ⟨line, ?_⟩
    rw [QualifiedName.text, QualifiedName.chars, String.ofList_append, ← backslash_append,
      ← String.append_assoc]
    exact Derives.rule (hi 2 (by decide)) (hp 2 (by decide))
      (.token (t := ⟨.kwNamespace, w.name.text, line, pos⟩) rfl
        (.token (t := ⟨.backslash, "\\", line', pos'⟩) rfl (gives_path p hvs).last))

theorem gives_named (n : QualifiedName) (h : ts.map Token.word = n.words) :
    prototypes.Gives file .className ts (.ok n.text) := by
  have hp : ∀ j < 3, productions[Reduction.className + j]? =
      (nameRules .className fun _ name => name)[j]? := by
    intro j hj
    interval_cases j <;> rfl
  obtain ⟨-, hd⟩ := gives_qualifiedName file Reduction.className (by decide) hp n h
  exact hd

theorem gives_default (d : Default) (h : ts.map Token.word = d.words) :
    ∃ t, prototypes.Gives file .staticScalar ts (.ok t) ∧ d.Matches t := by
  cases d with
  | constant n =>
    have hp : ∀ j < 3, productions[Reduction.staticName + j]? =
        (nameRules .staticScalar fun line name => node line .constant [.text name])[j]? := by
      intro j hj
      interval_cases j <;> rfl
    obtain ⟨line, hd⟩ := gives_qualifiedName file Reduction.staticName (by decide) hp n h
    exact ⟨_, hd, line, rfl⟩
  | emptyArray =>
    simp only [Default.words, List.map_eq_cons_iff, List.map_eq_nil_iff] at h
    obtain ⟨a, -, rfl, ha, b, -, rfl, hb, c, -, rfl, hc, rfl⟩ := h
    obtain ⟨_, _, rfl⟩ := exists_token ha
    obtain ⟨_, _, rfl⟩ := exists_token hb
    obtain ⟨_, _, rfl⟩ := exists_token hc
    have hnone : prototypes.Gives file .staticPairs [] (.ok []) :=
      gives_nothing.lift Reduction.staticNone (by decide) rfl
    exact ⟨_, Derives.rule (i := Reduction.staticArray) (by decide) rfl
      (.token rfl (.token rfl (hnone.before (.token rfl .nil)))), _, rfl⟩
  | number n hn =>
    obtain ⟨t, rfl, ht⟩ := List.map_eq_singleton_iff.mp h
    obtain ⟨hk, hs⟩ := Prod.mk.inj ht
    have hvalue : (integerValue t.text.toList).map Tree.int = .ok (.int n) := by
      rw [hs, String.toList_ofList, Numeral.integerValue_eq (n := n) .decimal]
      rfl
    have hd : prototypes.Gives file .commonScalar [t] ((integerValue t.text.toList).map Tree.int) :=
      Derives.rule (i := Reduction.integer) (by decide) rfl (.token hk .nil)
    rw [hvalue] at hd
    exact ⟨_, hd.lift (v := .staticScalar) Reduction.staticCommon (by decide) rfl, rfl⟩

/-- The tokens of a type: none, a class, or the word for an array. -/
theorem gives_hint (file : Option String) (p : Parameter) (h : ts.map Token.word = p.hintWords) :
    ts = [] ∧ p.type = .null ∨
      (∃ c, prototypes.Gives file .className ts (.ok c) ∧ p.type = .text c) ∨
      ∃ a : Token, ts = [a] ∧ a.kind = .kwArray ∧ p.type = .text a.text := by
  rw [Parameter.hintWords] at h
  simp only [Parameter.type]
  cases hp : p.hint with
  | none =>
    rw [hp] at h
    exact Or.inl ⟨List.map_eq_nil_iff.mp h, rfl⟩
  | some t =>
    rw [hp] at h
    cases t with
    | named n => exact Or.inr (Or.inl ⟨_, gives_named n h, rfl⟩)
    | static w hw =>
      obtain ⟨a, rfl, ha⟩ := List.map_eq_singleton_iff.mp h
      obtain ⟨line, pos, rfl⟩ := exists_token ha
      have hd : prototypes.Gives file .className [⟨.kwStatic, w.name.text, line, pos⟩]
          (.ok (lower w.name.text)) := gives_token Reduction.classStatic (by decide) rfl rfl
      rw [hw] at hd
      exact Or.inr (Or.inl ⟨_, hd, rfl⟩)
    | array w =>
      obtain ⟨a, rfl, ha⟩ := List.map_eq_singleton_iff.mp h
      obtain ⟨line, pos, rfl⟩ := exists_token ha
      exact Or.inr (Or.inr ⟨_, rfl, rfl, rfl⟩)

theorem sign_cases (p : Parameter) (h : ts.map Token.word = p.signWords) :
    ts = [] ∧ p.isRef = false ∨ ∃ r : Token, ts = [r] ∧ r.kind = .bitAnd ∧ p.isRef = true := by
  rw [Parameter.signWords] at h
  cases hp : p.isRef with
  | false =>
    rw [hp] at h
    exact Or.inl ⟨List.map_eq_nil_iff.mp h, rfl⟩
  | true =>
    rw [hp] at h
    obtain ⟨r, rfl, hr⟩ := List.map_eq_singleton_iff.mp h
    exact Or.inr ⟨r, rfl, congrArg Prod.fst hr, rfl⟩

theorem gives_value (file : Option String) (p : Parameter)
    (h : ts.map Token.word = p.valueWords) :
    ts = [] ∧ p.MatchesValue .null ∨
      ∃ (e : Token) (us : List Token) (t : Tree), ts = e :: us ∧ e.kind = .equals ∧
        prototypes.Gives file .staticScalar us (.ok t) ∧ p.MatchesValue t := by
  rw [Parameter.valueWords] at h
  simp only [Parameter.MatchesValue]
  cases hp : p.value with
  | none =>
    rw [hp] at h
    exact Or.inl ⟨List.map_eq_nil_iff.mp h, trivial⟩
  | some d =>
    rw [hp] at h
    obtain ⟨e, us, rfl, he, hus⟩ := List.map_eq_cons_iff.mp h
    obtain ⟨t, hd, ht⟩ := gives_default d hus
    exact Or.inr ⟨e, us, t, rfl, congrArg Prod.fst he, hd, ht⟩

/-- The twelve forms of parameter: without a type, with a class or an array, by value or by
reference, and each without and with a default value. -/
theorem gives_parameter (file : Option String) (p : Parameter) (h : ts.map Token.word = p.words) :
    ∃ t, prototypes.Gives file .parameter ts (.ok t) ∧ p.Matches t := by
  obtain ⟨hs, us, rfl, hhs, hus⟩ := List.map_eq_append_iff.mp h
  obtain ⟨ss, ws, rfl, hss, hws⟩ := List.map_eq_append_iff.mp hus
  obtain ⟨v, vs, rfl, hv, hvs⟩ := List.map_eq_cons_iff.mp hws
  obtain ⟨hk, hname⟩ := Prod.mk.inj hv
  suffices ∃ line value ref type, prototypes.Gives file .parameter (hs ++ (ss ++ v :: vs))
      (.ok (formalParameter line v value ref type)) ∧ p.MatchesValue value ∧ p.isRef = ref ∧
        p.type = type by
    obtain ⟨line, value, ref, type, hd, hvalue, rfl, rfl⟩ := this
    exact ⟨_, hd, line, value, by rw [← hname]; rfl, hvalue⟩
  obtain ⟨rfl, hvalue⟩ | ⟨e, ds, d, rfl, he, hd, hvalue⟩ := gives_value file p hvs
  all_goals
    obtain ⟨rfl, href⟩ | ⟨r, rfl, hr, href⟩ := sign_cases p hss
    all_goals
      obtain ⟨rfl, htype⟩ | ⟨c, hc, htype⟩ | ⟨a, rfl, ha, htype⟩ := gives_hint file p hhs
  · exact ⟨_, _, _, _, Derives.rule (i := Reduction.parameter) (by decide) rfl
      (.token hk .nil), hvalue, href, htype⟩
  · exact ⟨_, _, _, _, Derives.rule (i := Reduction.classParameter) (by decide) rfl
      (hc.before (.token hk .nil)), hvalue, href, htype⟩
  · exact ⟨_, _, _, _, Derives.rule (i := Reduction.arrayParameter) (by decide) rfl
      (.token ha (.token hk .nil)), hvalue, href, htype⟩
  · exact ⟨_, _, _, _, Derives.rule (i := Reduction.refParameter) (by decide) rfl
      (.token hr (.token hk .nil)), hvalue, href, htype⟩
  · exact ⟨_, _, _, _, Derives.rule (i := Reduction.classRefParameter) (by decide) rfl
      (hc.before (.token hr (.token hk .nil))), hvalue, href, htype⟩
  · exact ⟨_, _, _, _, Derives.rule (i := Reduction.arrayRefParameter) (by decide) rfl
      (.token ha (.token hr (.token hk .nil))), hvalue, href, htype⟩
  · exact ⟨_, _, _, _, Derives.rule (i := Reduction.parameterDefault) (by decide) rfl
      (.token hk (.token he hd.last)), hvalue, href, htype⟩
  · exact ⟨_, _, _, _, Derives.rule (i := Reduction.classParameterDefault) (by decide) rfl
      (hc.before (.token hk (.token he hd.last))), hvalue, href, htype⟩
  · exact ⟨_, _, _, _, Derives.rule (i := Reduction.arrayParameterDefault) (by decide) rfl
      (.token ha (.token hk (.token he hd.last))), hvalue, href, htype⟩
  · exact ⟨_, _, _, _, Derives.rule (i := Reduction.refParameterDefault) (by decide) rfl
      (.token hr (.token hk (.token he hd.last))), hvalue, href, htype⟩
  · exact ⟨_, _, _, _, Derives.rule (i := Reduction.classRefParameterDefault) (by decide) rfl
      (hc.before (.token hr (.token hk (.token he hd.last)))), hvalue, href, htype⟩
  · exact ⟨_, _, _, _, Derives.rule (i := Reduction.arrayRefParameterDefault) (by decide) rfl
      (.token ha (.token hr (.token hk (.token he hd.last)))), hvalue, href, htype⟩

/-- Parameters behind others. -/
theorem gives_more {ps : List Parameter} {xs : List Tree}
    (hts : prototypes.Gives file .parameters ts (.ok xs))
    (hus : us.map Token.word = (ps.map Parameter.words).flatMap ([(Kind.comma, ",")] ++ ·)) :
    ∃ ys, prototypes.Gives file .parameters (ts ++ us) (.ok (xs ++ ys)) ∧
      List.Forall₂ Parameter.Matches ps ys := by
  induction ps generalizing ts us xs with
  | nil =>
    obtain rfl := List.map_eq_nil_iff.mp hus
    exact ⟨[], by simpa using hts, .nil⟩
  | cons p ps ih =>
    obtain ⟨vs, ws, rfl, hvs, hws⟩ := List.map_eq_append_iff.mp hus
    obtain ⟨c, vs, rfl, hc, hvs⟩ := List.map_eq_cons_iff.mp hvs
    obtain ⟨t, hd, ht⟩ := gives_parameter file p hvs
    have hone : prototypes.Gives file .parameters (ts ++ c :: vs) (.ok (xs ++ [t])) :=
      Derives.rule (i := Reduction.parametersMore) (by decide) rfl
        (hts.before (.token (congrArg Prod.fst hc) hd.last))
    obtain ⟨ys, hall, hys⟩ := ih hone hws
    refine ⟨t :: ys, ?_, .cons ht hys⟩
    simpa using hall

theorem gives_parameters (file : Option String) (ps : List Parameter)
    (h : ts.map Token.word = [(.comma, ",")].intercalate (ps.map Parameter.words)) :
    ∃ xs, prototypes.Gives file .parameters ts (.ok xs) ∧
      List.Forall₂ Parameter.Matches ps xs := by
  cases ps with
  | nil =>
    obtain rfl := List.map_eq_nil_iff.mp h
    exact ⟨[], gives_nothing.lift Reduction.parametersNone (by decide) rfl, .nil⟩
  | cons p ps =>
    rw [List.map_cons, intercalate_cons] at h
    obtain ⟨us, vs, rfl, hus, hvs⟩ := List.map_eq_append_iff.mp h
    obtain ⟨t, hd, ht⟩ := gives_parameter file p hus
    have hone : prototypes.Gives file .parameters us (.ok [t]) :=
      hd.lift Reduction.parametersOne (by decide) rfl
    obtain ⟨ys, hall, hys⟩ := gives_more hone hvs
    exact ⟨t :: ys, hall, .cons ht hys⟩

/-- A function without statements. -/
theorem gives_function (file : Option String) (f : Prototype)
    (h : ts.map Token.word = f.sourceWords) :
    ∃ line xs, prototypes.Gives file .functionDeclaration ts
      (.ok (.node .function line [.text f.name.name.text, .list xs, .list [], .bool false])) ∧
      List.Forall₂ Parameter.Matches f.parameters xs := by
  obtain ⟨w, us, rfl, hw, hus⟩ := List.map_eq_cons_iff.mp h
  obtain ⟨hs, bs, rfl, hhs, hbs⟩ := List.map_eq_append_iff.mp hus
  obtain ⟨n, ns, rfl, hn, hns⟩ := List.map_eq_cons_iff.mp hhs
  obtain ⟨l, ls, rfl, hl, hls⟩ := List.map_eq_cons_iff.mp hns
  obtain ⟨ps, rs, rfl, hps, hrs⟩ := List.map_eq_append_iff.mp hls
  obtain ⟨r, rfl, hr⟩ := List.map_eq_singleton_iff.mp hrs
  simp only [List.map_eq_cons_iff, List.map_eq_nil_iff] at hbs
  obtain ⟨b, -, rfl, hb, e, -, rfl, he, rfl⟩ := hbs
  obtain ⟨hk, hname⟩ := Prod.mk.inj hn
  obtain ⟨xs, hd, hxs⟩ := gives_parameters file f.parameters hps
  have href : prototypes.Gives file .isReference [] (.ok false) :=
    gives_nothing.lift Reduction.referenceNone (by decide) rfl
  have hbody : prototypes.Gives file .innerStatements [] (.ok []) :=
    gives_nothing.lift Reduction.innerNone (by decide) rfl
  have hall : prototypes.Gives file .functionDeclaration
      (w :: ([] ++ n :: l :: (ps ++ r :: b :: ([] ++ [e]))))
      (.ok (.node .function (some w.line) [.text n.text, .list xs, .list [], .bool false])) :=
    Derives.rule (i := Reduction.function) (by decide) rfl
      (.token (congrArg Prod.fst hw) (href.before (.token hk (.token (congrArg Prod.fst hl)
        (hd.before (.token (congrArg Prod.fst hr) (.token (congrArg Prod.fst hb)
          (hbody.before (.token (congrArg Prod.fst he) .nil)))))))))
  rw [hname] at hall
  exact ⟨w.line, xs, by simpa using hall, hxs⟩

/-- The source of a prototype is read into a function that matches it. -/
theorem parse_source (file : Option String) (f : Prototype) :
    ∃ line xs, ((Filter.fresh []).parse file f.source).1 =
        .ok [.node .function line [.text f.name.name.text, .list xs, .list [], .bool false]] ∧
      List.Forall₂ Parameter.Matches f.parameters xs := by
  obtain ⟨v, hreads, hv⟩ := f.reads_source
  obtain ⟨ts, hts, hparse⟩ := parse_reads prototypes_fits (by decide) hreads hv
  obtain ⟨line, xs, hd, hxs⟩ := gives_function file f hts
  have hnone : prototypes.Gives file .topStatements [] (.ok []) :=
    gives_nothing.lift Reduction.statementsNone (by decide) rfl
  have hone := hd.lift (v := .topStatement) Reduction.topFunction (by decide) rfl
  have hall : prototypes.Gives file .topStatements ts (.ok _) :=
    Derives.rule (i := Reduction.statementsMore) (by decide) rfl (hnone.before hone.last)
  exact ⟨line, xs, hparse file _ hall, hxs⟩

end Fragment
end Docblock.Automaton
