import Docblock.Proofs.Grammar.Conservation

/-! The functions and the members of classes in the trees of a source, the tokens they are read
from, and the modifiers of the members. -/
namespace Docblock

namespace Tree

/-- A member of a class that has modifiers. -/
def hasModifiers (t : Tree) : Bool := t.isOf [.method, .classVariables]

def modifiers : Tree → List Tree
  | .node .method _ [_, .list ms, _, _, _] => ms
  | .node .classVariables _ [.list ms, _] => ms
  | _ => []

end Tree

namespace Grammar

open Docblock.Tree

variable {file : Option String} {v : Nonterminal} {n : Tree}

/-- What tokens are read as is a tree that their nonterminal admits. -/
theorem ReadAs.admits {us : List Token} {x : v.Value} (h : ReadAs file v us x) :
    ∀ t ∈ v.trees x, v.admits t = true := by
  obtain ⟨d, -, hx⟩ := h
  exact fun t ht => ((d.formed hx).1 t ht).2.1

/-- Every function in the value of a derivation is read from tokens that stand side by side in
it. -/
theorem Derivation.exists_function {x : v.Value} (d : Derivation v) (h : d.result file = .ok x)
    (hn : n ∈ nodesIn (v.trees x)) (hk : n.isOf [.function] = true) :
    ∃ us, us <:+: d.yield ∧ ReadAs file .functionDeclaration us n := by
  obtain ⟨line, fs, rfl⟩ := isOf_singleton hk
  obtain ⟨us, hus, hread | hread⟩ := d.exists_declares h hn rfl
  · exact ⟨us, hus, hread⟩
  · -- No member of a class is a function.
    have hmember := hread.admits _ (List.mem_singleton.mpr rfl)
    cases hmember

/-- Every member with modifiers is read from tokens that stand side by side. -/
theorem Derivation.exists_member {x : v.Value} (d : Derivation v) (h : d.result file = .ok x)
    (hn : n ∈ nodesIn (v.trees x)) (hk : n.hasModifiers = true) :
    ∃ us, us <:+: d.yield ∧ ReadAs file .classStatement us n := by
  have hkind : n.isOf declarationKinds = true := by
    cases n <;> simp_all [hasModifiers, declarationKinds, isOf]
  obtain ⟨us, hus, hread | hread⟩ := d.exists_declares h hn hkind
  · obtain ⟨line, fs, rfl⟩ := isOf_singleton (hread.admits n (List.mem_singleton.mpr rfl))
    cases hk
  · exact ⟨us, hus, hread⟩

/-- The words that are modifiers. -/
def modifierKinds : List Token.Kind :=
  [.kwPublic, .kwProtected, .kwPrivate, .kwStatic, .kwAbstract, .kwFinal]

def isModifier (t : Token) : Bool := modifierKinds.contains t.kind

/-- Modifiers as a member keeps them. -/
def kept (ws : List Token) : List Tree := ws.map fun w => .text (lower w.text)

/-- What the tokens of modifiers and of members have to do with what a member keeps. -/
def Modified : (v : Nonterminal) → List Token → v.Value → Prop
  | .modifier, us, s => ∃ w, us = [w] ∧ isModifier w = true ∧ s = lower w.text
  | .modifiers1, us, ms | .methodModifiers, us, ms =>
    (∀ w ∈ us, isModifier w = true) ∧ ms = kept us
  | .varModifiers, us, ms => (∀ w ∈ us, isModifier w = true) ∧ ms = kept us ∨
    ∃ w : Token, us = [w] ∧ w.kind = .kwVar ∧ ms = []
  | .classVars, us, _ => ∃ (v : Token) (rest : List Token), us = v :: rest ∧ v.kind = .var
  | .classStatement, us, t => t.hasModifiers = true → t.modifiers = kept (us.takeWhile isModifier)
  | .empty, us, _ => us = []
  | _, _, _ => True

theorem kept_of_behind {us rest : List Token} {w : Token} (hus : ∀ u ∈ us, isModifier u = true)
    (hw : isModifier w = false) : kept ((us ++ w :: rest).takeWhile isModifier) = kept us := by
  rw [List.takeWhile_append_of_pos hus, List.takeWhile_cons_of_neg (by simp [hw]), List.append_nil]

theorem not_isModifier {w : Token} {k : Token.Kind} (hk : w.kind = k) (h : k ∉ modifierKinds) :
    isModifier w = false := by
  simpa [isModifier, hk] using h

theorem hasModifiers_of_comment {t : Tree} (h : t.isOf [.comment] = true) :
    t.hasModifiers = false := by
  obtain ⟨line, fs, rfl⟩ := isOf_singleton h
  rfl

theorem modified_word {w : Token} {k : Token.Kind} (hk : w.kind = k) (h : k ∈ modifierKinds) :
    Modified .modifier [w] (lower w.text) :=
  ⟨w, rfl, by simpa [isModifier, hk] using h, rfl⟩

theorem modified_more {us ws : List Token} {ms : List Tree} {m : String}
    (hus : Modified .modifiers1 us ms) (hm : Modified .modifier ws m) :
    Modified .modifiers1 (us ++ ws) (snoc ms (.text m)) := by
  obtain ⟨hall, rfl⟩ := hus
  obtain ⟨w, rfl, hw, rfl⟩ := hm
  exact ⟨List.forall_mem_append.mpr ⟨hall, by simpa using hw⟩, by simp [kept, snoc]⟩

theorem modified_members : ∀ p ∈ memberRules, p.Spells file Modified := by
  simp only [memberRules, List.forall_mem_append, List.forall_mem_cons, List.forall_mem_map,
    List.not_mem_nil, false_imp_iff, implies_true, and_true]
  repeat' apply And.intro
  all_goals first | exact spells_of_forall fun _ _ => trivial | apply spells_rule
  · rintro us ms ⟨-, hus, rfl⟩ w hw qs ref - name - l - ps params - r - bs body - -
    exact (kept_of_behind hus (not_isModifier hw (by decide))).symm
  · rintro us t ⟨ht, -⟩ hmod
    rw [hasModifiers_of_comment (ht.admits t (List.mem_singleton.mpr rfl))] at hmod
    cases hmod
  · rintro us ms ⟨-, ⟨hus, rfl⟩ | ⟨w, rfl, hw, rfl⟩⟩ vs vars ⟨-, v, rest, rfl, hv⟩ s - -
    · exact (kept_of_behind hus (not_isModifier hv (by decide))).symm
    · have hfirst : isModifier w = false := not_isModifier hw (by decide)
      simp [modifiers, node, hfirst, kept]
  · rintro us cs - s - hmod
    cases hmod
  · rintro us vs ⟨-, v, rest, rfl, hv⟩ c - v' - e - ws x -
    exact ⟨v, _, rfl, hv⟩
  · rintro v hv e - us x -
    exact ⟨v, _, rfl, hv⟩
  · rintro us vs ⟨-, v, rest, rfl, hv⟩ c - v' -
    exact ⟨v, _, rfl, hv⟩
  · rintro v hv
    exact ⟨v, _, rfl, hv⟩
  · rintro us ms ⟨-, hms⟩
    simp only [Spells, List.append_nil]
    exact Or.inl hms
  · rintro w hw
    exact Or.inr ⟨w, rfl, hw, rfl⟩
  · rintro us ms ⟨-, hms⟩
    simp only [Spells, List.append_nil]
    exact hms
  · rintro us x ⟨-, rfl⟩
    exact ⟨by simp, rfl⟩
  · rintro us ms ⟨-, hms⟩ ws m ⟨-, hm⟩
    simp only [Spells, List.append_nil]
    exact modified_more hms hm
  · rintro us m ⟨-, hm⟩
    have hnone : Modified .modifiers1 [] [] := ⟨fun _ hw => absurd hw List.not_mem_nil, rfl⟩
    simp only [Spells, List.append_nil]
    exact modified_more hnone hm
  all_goals exact fun w hw => modified_word hw (by decide)

/-- The nonterminals of which `Modified` says something. -/
def modifying : List Nonterminal := [.modifier, .modifiers1, .methodModifiers, .varModifiers,
  .classVars, .classStatement, .empty]

theorem modified_of_not_mem (v : Nonterminal) (hv : v ∉ modifying) (us : List Token)
    (x : v.Value) : Modified v us x := by
  cases v <;> trivial

theorem modified_productions : ∀ p ∈ productions, p.Spells file Modified := by
  have hdeclarations : ∀ p ∈ functionRules ++ parameterRules ++ classRules,
      p.Spells file Modified := spells_outside modified_of_not_mem (by decide)
  have hliterals : ∀ p ∈ scalarRules ++ staticScalarRules ++ encapsRules.dropLast,
      p.Spells file Modified := spells_outside modified_of_not_mem (by decide)
  refine forall_productions (spells_outside modified_of_not_mem (by decide)) ?_
    (spells_outside modified_of_not_mem (by decide)) ?_
  · exact List.forall_mem_append.mpr ⟨hdeclarations, modified_members⟩
  · have hempty : encapsRules = encapsRules.dropLast ++ [rule .empty [] ()] := rfl
    rw [hempty, ← List.append_assoc, List.forall_mem_append, List.forall_mem_singleton]
    exact ⟨hliterals, spells_rule rfl⟩

/-- A member keeps the modifiers that stand before it. -/
theorem modifiers_of_readAs {us : List Token} {t : Tree} (h : ReadAs file .classStatement us t)
    (ht : t.hasModifiers = true) : t.modifiers = kept (us.takeWhile isModifier) :=
  h.spelled modified_productions ht

end Grammar
end Docblock
