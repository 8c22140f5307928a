import Docblock.Proofs.Grammar.Comments
import Docblock.Proofs.Grammar.Members
import Docblock.Proofs.Script.Defaults

/-! No comment stands among the parameters of a function or a method. -/
namespace Docblock.Grammar

open Docblock.Tree

variable {file : Option String} {ss : List Symbol}

/-- The nonterminals of parameters, with those of types and of default values. -/
def quietNonterminals : List Nonterminal := [.parameters, .parameter, .className, .namespaceName,
  .staticScalar, .commonScalar, .staticPairs, .staticPairs1, .possibleComma, .empty]

/-- A symbol from which no comment is derived. -/
def Symbol.isQuiet : Symbol → Bool
  | .t k => k != .comment && k != .docComment
  | .n v => quietNonterminals.contains v

theorem isQuiet_rhs : (productions.all fun p =>
    !Symbol.isQuiet (.n p.lhs) || p.rhs.all Symbol.isQuiet) = true := by
  decide +kernel

theorem Forest.yield_quiet (forest : Forest ss) (h : ∀ s ∈ ss, Symbol.isQuiet s = true) :
    spokenIn forest.yield = 0 := by
  induction forest with
  | nil => rfl
  | token t rest ih =>
    obtain ⟨ht, hrest⟩ := List.forall_mem_cons.mp h
    have hkind : noted t.kind t = 0 := by
      unfold noted
      split <;> simp_all [Symbol.isQuiet]
    rw [yield, spokenIn_cons, hkind, ih hrest]
    rfl
  | node p hp children rest ihc ihr =>
    obtain ⟨hlhs, hrest⟩ := List.forall_mem_cons.mp h
    have hrhs : ∀ s ∈ p.rhs, Symbol.isQuiet s = true := by
      simpa [hlhs] using List.all_eq_true.mp isQuiet_rhs p hp
    rw [yield, spokenIn_append, ihc hrhs, ihr hrest, zero_add]

/-- What is read from the tokens of a quiet nonterminal holds no comment. -/
theorem ReadAs.quiet {v : Nonterminal} {us : List Token} {x : v.Value} (h : ReadAs file v us x)
    (hv : Symbol.isQuiet (.n v) = true) : commentsIn (v.trees x) = 0 := by
  obtain ⟨d, -, hx⟩ := h
  rw [d.commentsIn_trees hx]
  exact d.yield_quiet (by simpa using hv)

/-- The parameters of functions and members hold no comment. -/
def Quiet : (v : Nonterminal) → List Token → v.Value → Prop
  | .functionDeclaration, _, t | .classStatement, _, t => commentsIn t.parameters = 0
  | _, _, _ => True

/-- The nonterminals of which `Quiet` says something. -/
def declaring : List Nonterminal := [.functionDeclaration, .classStatement]

theorem quiet_of_not_mem (v : Nonterminal) (hv : v ∉ declaring) (us : List Token) (x : v.Value) :
    Quiet v us x := by
  cases v <;> trivial

theorem quiet_functions : ∀ p ∈ functionRules, p.Spells file Quiet := by
  have hothers : ∀ p ∈ functionRules.drop 1, p.Spells file Quiet :=
    spells_outside quiet_of_not_mem (by decide)
  refine List.forall_mem_cons.mpr ⟨spells_rule ?_, hothers⟩
  rintro w - qs ref - n - l - us ps ⟨hps, -⟩ r - b - vs body - c -
  exact hps.quiet rfl

theorem parameters_of_comment {t : Tree} (h : t.isOf [.comment] = true) : t.parameters = [] := by
  obtain ⟨line, fs, rfl⟩ := isOf_singleton h
  rfl

theorem quiet_members : ∀ p ∈ memberRules, p.Spells file Quiet := by
  simp only [memberRules, List.forall_mem_append, List.forall_mem_cons, List.forall_mem_map,
    List.not_mem_nil, false_imp_iff, implies_true, and_true]
  repeat' apply And.intro
  all_goals first | exact spells_of_forall fun _ _ => trivial | apply spells_rule
  · rintro ms mods - w - qs ref - n - l - us ps ⟨hps, -⟩ r - vs body -
    exact hps.quiet rfl
  · rintro us c ⟨hc, -⟩
    have hnone := parameters_of_comment (hc.admits c (List.mem_singleton.mpr rfl))
    exact congrArg commentsIn hnone
  · rintro us ms - vs ns - s -
    rfl
  · rintro us cs - s -
    rfl

theorem quiet_productions : ∀ p ∈ productions, p.Spells file Quiet := by
  have hmiddle : ∀ p ∈ parameterRules ++ classRules, p.Spells file Quiet :=
    spells_outside quiet_of_not_mem (by decide)
  refine forall_productions (spells_outside quiet_of_not_mem (by decide)) ?_
    (spells_outside quiet_of_not_mem (by decide)) (spells_outside quiet_of_not_mem (by decide))
  simp only [List.forall_mem_append] at hmiddle ⊢
  exact ⟨⟨⟨quiet_functions, hmiddle.1⟩, hmiddle.2⟩, quiet_members⟩

/-- No parameter of a function or a member in the value of a derivation holds a comment. -/
theorem Derivation.quiet {v : Nonterminal} {x : v.Value} {n : Tree} (d : Derivation v)
    (h : d.result file = .ok x) (hn : n ∈ nodesIn (v.trees x))
    (hk : n.isOf declarationKinds = true) : commentsIn n.parameters = 0 := by
  obtain ⟨us, -, hread | hread⟩ := d.exists_declares h hn hk
  · exact hread.spelled quiet_productions
  · exact hread.spelled quiet_productions

end Docblock.Grammar
