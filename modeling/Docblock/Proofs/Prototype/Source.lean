import Docblock.Proofs.Grammar.Members
import Docblock.Proofs.Prototype.Basic
import Docblock.Proofs.Result

/-! The functions of a source open like prototypes, and match them if the default values of their
parameters can be shown. -/
namespace Docblock

open Token Text Grammar

namespace Token

theorem ascii_lower : (List.range 128).all (fun n =>
    let c := Char.ofNat n
    c.toLower.toLower == c.toLower && c.toLower.toUpper == c.toUpper &&
      isNameStart c.toLower == isNameStart c && isWord c.toLower == isWord c) = true := by
  decide

/-- Lower case changes neither lower case, nor upper case, nor what can stand in a name. -/
theorem toLower_eq (c : Char) : c.toLower.toLower = c.toLower ∧ upper c.toLower = upper c ∧
    isNameStart c.toLower = isNameStart c ∧ isWord c.toLower = isWord c := by
  by_cases h : c.toNat < 0x80
  · have hc := List.all_eq_true.mp ascii_lower c.toNat (List.mem_range.mpr h)
    rw [Char.ofNat_toNat] at hc
    simp only [Bool.and_eq_true, beq_iff_eq] at hc
    obtain ⟨⟨⟨hlower, hupper⟩, hstart⟩, hword⟩ := hc
    refine ⟨hlower, ?_, hstart, hword⟩
    rw [upper_of_ascii h, upper_of_ascii (toLower_of_ascii h).2, hupper]
  · rw [toLower_of_not_ascii h]
    exact ⟨toLower_of_not_ascii h, rfl, rfl, rfl⟩

namespace Name

/-- A name in lower case. -/
def toLower (v : Name) : Name where
  head := v.head.toLower
  tail := v.tail.map Char.toLower
  isNameStart_head := (toLower_eq v.head).2.2.1.trans v.isNameStart_head
  isWord_tail := List.forall_mem_map.mpr fun c hc =>
    (toLower_eq c).2.2.2.trans (v.isWord_tail c hc)

theorem chars_toLower (v : Name) : v.toLower.chars = v.chars.map Char.toLower := rfl

theorem lower_text (v : Name) : lower v.text = v.toLower.text := by
  rw [← String.toList_inj, toList_lower, text, text, String.toList_ofList, String.toList_ofList,
    chars_toLower]

theorem kindOfName_toLower (v : Name) : kindOfName v.toLower.chars = kindOfName v.chars := by
  have hupper : ∀ cs : List Char, (cs.map Char.toLower).flatMap upper = cs.flatMap upper := by
    intro cs
    rw [List.flatMap_map]
    exact List.flatMap_congr fun c _ => (toLower_eq c).2.1
  rw [kindOfName, chars_toLower, hupper, kindOfName]

theorem lower_toLower (v : Name) : lower v.toLower.text = v.toLower.text := by
  rw [← String.toList_inj, toList_lower, text, String.toList_ofList, chars_toLower, List.map_map]
  exact List.map_congr_left fun c _ => (toLower_eq c).1

end Name

variable {a t : Token} {k : Kind} {ts us : List Token}

/-- A token of one of these kinds is a word of its kind. -/
theorem Spelt.exists_word (h : t.Spelt) (ht : t.kind = k) (hk : k ∈ hintKinds) :
    ∃ w : Word k, t.text = w.name.text := by
  subst ht
  obtain ⟨v, hv⟩ := h.name (List.mem_cons_of_mem _ hk)
  have hkind := h.word hk
  rw [hv, Name.text, String.toList_ofList] at hkind
  exact ⟨⟨v, hkind⟩, hv⟩

/-- Tokens that stand behind a steady one. -/
def Behind (ts : List Token) : Prop :=
  ∃ a : Token, a.kind ∈ steadyKinds ∧ List.IsChain Follows (a :: ts)

namespace Behind

theorem left (h : Behind (ts ++ us)) : Behind ts := by
  obtain ⟨a, ha, hchain⟩ := h
  exact ⟨a, ha, hchain.infix (List.prefix_append (a :: ts) us).isInfix⟩

theorem suffix (h : Behind ts) (ha : a.kind ∈ steadyKinds) (hs : a :: us <:+ ts) : Behind us := by
  obtain ⟨b, -, hchain⟩ := h
  exact ⟨a, ha, hchain.infix (hs.trans (List.suffix_cons b ts)).isInfix⟩

theorem spelt (h : Behind ts) (ht : t ∈ ts) : t.Spelt := by
  obtain ⟨a, -, hchain⟩ := h
  induction ts generalizing a with
  | nil => cases ht
  | cons b ts ih =>
    obtain ⟨hfollows, hrest⟩ := List.isChain_cons_cons.mp hchain
    obtain rfl | ht := List.mem_cons.mp ht
    · exact hfollows.spelt
    · exact ih ht b hrest

theorem exists_word (h : Behind (t :: ts)) (ht : t.kind = .ident) :
    ∃ w : Word .ident, t.text = w.name.text := by
  obtain ⟨a, ha, hchain⟩ := h
  have hfollows := (List.isChain_cons_cons.mp hchain).1
  obtain ⟨v, hv⟩ := hfollows.spelt.name (by simp [ht])
  have hkind := hfollows.ident ha ht
  rw [hv, Name.text, String.toList_ofList] at hkind
  exact ⟨⟨v, hkind⟩, hv⟩

end Behind
end Token

/-- A default value that a signature shows as it can be written. -/
def Tree.isShown : Tree → Bool
  | .node .constant _ _ | .node .array _ [.list []] => true
  | .int n => 0 < n
  | _ => false

/-- A parameter that has no default value, or one that is shown. -/
def Tree.hasShownDefault : Tree → Bool
  | .node .formalParameter _ [_, value, _, _] => value matches .null || value.isShown
  | _ => false

/-- A tree opens like a parameter, and it is one if its default value is shown. -/
structure Tree.IsParameter (t : Tree) : Prop where
  opens : ∃ p : Parameter, p.Opens t
  shown : t.hasShownDefault = true → ∃ p : Parameter, p.Matches t

namespace Grammar

variable {file : Option String} {us : List Token} {s : String}

/-- What names, parameters and functions have to do with the ways to write them. -/
def Written : (v : Nonterminal) → List Token → v.Value → Prop
  | .namespaceName, us, s => Behind us → ∃ p : Path, s = String.ofList p.chars
  | .className, us, s => Behind us → ∃ h : Hint, s = h.text
  | .commonScalar, us, t | .staticScalar, us, t =>
    Behind us → t.isShown = true → ∃ d : Default, d.Matches t
  | .parameter, us, t => Behind us → t.IsParameter
  | .parameters, us, ts => Behind us → ∀ t ∈ ts, t.IsParameter
  | .isReference, us, _ => us = [] ∨ ∃ r : Token, us = [r] ∧ r.kind = .bitAnd
  | .functionDeclaration, us, t => List.IsChain Follows us →
    ∃ (line : Option Int) (name : Word .ident) (ps : List Tree) (body ref : Tree),
      t = .node .function line [.text name.name.text, .list ps, body, ref] ∧
        ∀ p ∈ ps, p.IsParameter
  | .empty, us, _ => us = []
  | _, _, _ => True

/-- The three ways to write a qualified name. -/
theorem written_nameRules {lhs : Nonterminal} {value : Int → String → lhs.Value}
    (h : ∀ line us s, (Behind us → ∃ n : QualifiedName, s = n.text) →
      Written lhs us (value line s)) :
    ∀ p ∈ nameRules lhs value, p.Spells file Written := by
  simp only [nameRules, List.forall_mem_cons, List.not_mem_nil, false_imp_iff, implies_true,
    and_true]
  refine ⟨spells_rule ?_, spells_rule ?_, spells_rule ?_⟩
  · rintro us s ⟨-, hs⟩
    refine h _ _ _ fun hus => ?_
    obtain ⟨p, rfl⟩ := hs hus.left
    exact ⟨.relative p, rfl⟩
  · rintro b hb us s ⟨-, hs⟩
    refine h _ _ _ fun hus => ?_
    have hpath := hus.suffix (by rw [hb]; decide) List.suffix_rfl
    obtain ⟨p, rfl⟩ := hs hpath.left
    refine ⟨.absolute p, ?_⟩
    rw [(hus.spelt List.mem_cons_self).backslash hb]
    exact String.ofList_append.symm
  · rintro w hw b hb us s ⟨-, hs⟩
    refine h _ _ _ fun hus => ?_
    have hpath := hus.suffix (by rw [hb]; decide) (List.suffix_cons w _)
    obtain ⟨p, rfl⟩ := hs hpath.left
    obtain ⟨v, hv⟩ := (hus.spelt List.mem_cons_self).exists_word hw (by decide)
    refine ⟨.current v p, ?_⟩
    rw [(hus.spelt (List.mem_cons_of_mem _ List.mem_cons_self)).backslash hb, hv]
    simp [QualifiedName.text, QualifiedName.chars, Name.text, ← String.toList_inj]

theorem written_static {w : Token} (hw : w.kind = .kwStatic) :
    Written .className [w] (lower w.text) := by
  intro hus
  obtain ⟨v, hv⟩ := (hus.spelt List.mem_cons_self).exists_word hw (by decide)
  refine ⟨.static ⟨v.name.toLower, ?_⟩ v.name.lower_toLower, ?_⟩
  · rw [Name.kindOfName_toLower, v.kindOfName_name]
  · rw [hv, Name.lower_text]
    rfl

theorem written_classNames : ∀ p ∈ classNameRules, p.Spells file Written := by
  simp only [classNameRules, List.forall_mem_append, List.forall_mem_cons, List.not_mem_nil,
    false_imp_iff, implies_true, and_true]
  repeat' apply And.intro
  all_goals first | exact spells_of_forall fun _ _ => trivial | skip
  · refine written_nameRules fun _ us s hs hus => ?_
    obtain ⟨n, rfl⟩ := hs hus
    exact ⟨.named n, rfl⟩
  · exact spells_rule fun w hw => written_static hw

theorem exists_number {n : Int} (h : (Tree.int n).isShown = true) :
    ∃ d : Default, d.Matches (.int n) := by
  have hn : 0 < n := of_decide_eq_true h
  exact ⟨.number n.toNat (by omega), congrArg Tree.int (by omega)⟩

theorem isShown_unescape {t : Tree} (h : unescape s = .ok t) : t.isShown = false := by
  simp only [unescape] at h
  split at h <;> cases h
  rfl

/-- An array that is shown is empty. -/
theorem exists_emptyArray {line : Option Int} {ts : List Tree}
    (h : (Tree.node .array line [.list ts]).isShown = true) :
    ∃ d : Default, d.Matches (.node .array line [.list ts]) := by
  cases ts with
  | nil => exact ⟨.emptyArray, line, rfl⟩
  | cons t ts => cases h

theorem written_scalars : ∀ p ∈ scalarRules, p.Spells file Written := by
  simp only [scalarRules, List.forall_mem_append, List.forall_mem_cons, List.not_mem_nil,
    false_imp_iff, implies_true, and_true]
  repeat' apply And.intro
  all_goals first
    | exact spells_of_forall fun _ _ => trivial
    | exact written_nameRules fun _ _ _ _ => trivial
    | skip
  · rintro v - x h - hshown
    obtain ⟨n, -, rfl⟩ := ok_of_map h
    exact exists_number hshown
  -- No other value of one token is shown.
  all_goals
    rintro v - x ⟨⟩ - hshown
    cases hshown

theorem written_member {b w : Token} (hb : b.kind = .backslash) (hw : w.kind = .ident)
    (hs : Written .namespaceName us s) :
    Written .namespaceName (us ++ [b, w]) (s ++ b.text ++ w.text) := by
  intro hus
  obtain ⟨p, rfl⟩ := hs hus.left
  have hlast := hus.suffix (by rw [hb]; decide) (List.suffix_append us [b, w])
  obtain ⟨v, hv⟩ := hlast.exists_word hw
  refine ⟨.member p v, ?_⟩
  rw [(hus.spelt (by simp)).backslash hb, hv]
  simp [Path.chars, Name.text, ← String.toList_inj]

theorem written_staticScalars : ∀ p ∈ staticScalarRules, p.Spells file Written := by
  simp only [staticScalarRules, List.forall_mem_append, List.forall_mem_cons, List.not_mem_nil,
    false_imp_iff, implies_true, and_true]
  repeat' apply And.intro
  all_goals first | exact spells_of_forall fun _ _ => trivial | skip
  · refine spells_rule ?_
    rintro us t ⟨-, ht⟩ hus
    exact ht hus.left
  · rintro q - q' - x ⟨⟩ - hshown
    cases hshown
  · rintro q - s - q' - x h - hshown
    rw [isShown_unescape h] at hshown
    cases hshown
  · refine written_nameRules fun line us s hs hus _ => ?_
    obtain ⟨n, rfl⟩ := hs hus
    exact ⟨.constant n, line, rfl⟩
  · rintro o - us t - x ⟨⟩ - hshown
    cases hshown
  · rintro o - us t - x ⟨⟩ - hshown
    cases hshown
  · refine spells_rule ?_
    rintro w - l - us ts - r - - hshown
    exact exists_emptyArray hshown
  · refine spells_rule ?_
    rintro us s ⟨-, hs⟩ b hb w hw
    exact written_member hb hw hs
  · refine spells_rule ?_
    rintro w hw hus
    obtain ⟨v, hv⟩ := hus.exists_word hw
    exact ⟨.single v, hv⟩

/-! ### Parameters and functions -/

/-- No type, or one that can be written. -/
def Typed (t : Tree) : Prop := ∃ h : Option Hint, t = h.elim .null fun h => .text h.text

theorem typed_null : Typed .null := ⟨none, rfl⟩

theorem typed_className (hs : Written .className us s) (hus : Behind us) : Typed (.text s) := by
  obtain ⟨h, rfl⟩ := hs hus
  exact ⟨some h, rfl⟩

theorem typed_array {a : Token} (hus : Behind (a :: us)) (ha : a.kind = .kwArray) :
    Typed (.text a.text) := by
  obtain ⟨w, hw⟩ := (hus.spelt List.mem_cons_self).exists_word ha (by decide)
  exact ⟨some (.array w), congrArg Tree.text hw⟩

/-- A parameter is written if its type and its default value are. -/
theorem isParameter_formal {v : Token} {line : Int} {value type : Tree} {ref : Bool}
    (hus : Behind us) (hv : v.kind = .var) (hmem : v ∈ us) (htype : Typed type)
    (hvalue : value.isShown = true → ∃ d : Default, d.Matches value) :
    (formalParameter line v value ref type).IsParameter := by
  obtain ⟨name, hname⟩ := (hus.spelt hmem).var hv
  obtain ⟨hint, rfl⟩ := htype
  refine ⟨⟨⟨hint, ref, name, none⟩, some line, value, by rw [formalParameter, hname]; rfl⟩, ?_⟩
  intro h
  obtain hnull | hshown := Bool.or_eq_true_iff.mp h
  · have hv : value = .null := by
      cases value with
      | null => rfl
      | _ => cases hnull
    exact ⟨⟨hint, ref, name, none⟩, some line, value, by rw [formalParameter, hname]; rfl, hv⟩
  · obtain ⟨d, hd⟩ := hvalue hshown
    exact ⟨⟨hint, ref, name, some d⟩, some line, value, by rw [formalParameter, hname]; rfl, hd⟩

/-- Where there is no default value, none is shown. -/
theorem exists_default_null (h : Tree.null.isShown = true) : ∃ d : Default, d.Matches .null := by
  cases h

/-- The value behind the sign for equality at the end of a parameter. -/
theorem exists_default {e : Token} {vs : List Token} {t : Tree} (hus : Behind us)
    (he : e.kind = .equals) (hs : e :: (vs ++ []) <:+ us) (ht : Written .staticScalar vs t)
    (hshown : t.isShown = true) : ∃ d : Default, d.Matches t := by
  have hvs := hus.suffix (by rw [he]; decide) hs
  exact ht hvs.left hshown

theorem written_parameters : ∀ p ∈ parameterRules, p.Spells file Written := by
  simp only [parameterRules, List.forall_mem_cons, List.not_mem_nil, false_imp_iff, implies_true,
    and_true]
  repeat' apply And.intro
  all_goals apply spells_rule
  · rintro v hv hus
    exact isParameter_formal hus hv (by simp) typed_null exists_default_null
  · rintro us c ⟨-, hc⟩ v hv hus
    exact isParameter_formal hus hv (by simp) (typed_className hc hus.left) exists_default_null
  · rintro a ha v hv hus
    exact isParameter_formal hus hv (by simp) (typed_array hus ha) exists_default_null
  · rintro r - v hv hus
    exact isParameter_formal hus hv (by simp) typed_null exists_default_null
  · rintro us c ⟨-, hc⟩ r - v hv hus
    exact isParameter_formal hus hv (by simp) (typed_className hc hus.left) exists_default_null
  · rintro a ha r - v hv hus
    exact isParameter_formal hus hv (by simp) (typed_array hus ha) exists_default_null
  · rintro v hv e he vs t ⟨-, ht⟩ hus
    have hs : e :: (vs ++ []) <:+ v :: e :: (vs ++ []) := ⟨[v], rfl⟩
    exact isParameter_formal hus hv (by simp) typed_null (exists_default hus he hs ht)
  · rintro us c ⟨-, hc⟩ v hv e he vs t ⟨-, ht⟩ hus
    have hs : e :: (vs ++ []) <:+ us ++ v :: e :: (vs ++ []) := ⟨us ++ [v], by simp⟩
    exact isParameter_formal hus hv (by simp) (typed_className hc hus.left)
      (exists_default hus he hs ht)
  · rintro a ha v hv e he vs t ⟨-, ht⟩ hus
    have hs : e :: (vs ++ []) <:+ a :: v :: e :: (vs ++ []) := ⟨[a, v], rfl⟩
    exact isParameter_formal hus hv (by simp) (typed_array hus ha) (exists_default hus he hs ht)
  · rintro r - v hv e he vs t ⟨-, ht⟩ hus
    have hs : e :: (vs ++ []) <:+ r :: v :: e :: (vs ++ []) := ⟨[r, v], rfl⟩
    exact isParameter_formal hus hv (by simp) typed_null (exists_default hus he hs ht)
  · rintro us c ⟨-, hc⟩ r - v hv e he vs t ⟨-, ht⟩ hus
    have hs : e :: (vs ++ []) <:+ us ++ r :: v :: e :: (vs ++ []) := ⟨us ++ [r, v], by simp⟩
    exact isParameter_formal hus hv (by simp) (typed_className hc hus.left)
      (exists_default hus he hs ht)
  · rintro a ha r - v hv e he vs t ⟨-, ht⟩ hus
    have hs : e :: (vs ++ []) <:+ a :: r :: v :: e :: (vs ++ []) := ⟨[a, r, v], rfl⟩
    exact isParameter_formal hus hv (by simp) (typed_array hus ha) (exists_default hus he hs ht)

/-- The name of a function stands behind the word that begins it, or behind a sign. -/
theorem behind_functionName {w n : Token} {qs rest : List Token} {ref : Bool}
    (hw : w.kind = .kwFunction) (hqs : Written .isReference qs ref)
    (h : List.IsChain Follows (w :: (qs ++ n :: rest))) : Behind (n :: rest) := by
  obtain rfl | ⟨r, rfl, hr⟩ := hqs
  · exact ⟨w, by rw [hw]; decide, h⟩
  · exact ⟨r, by rw [hr]; decide, h.tail⟩

theorem written_function {w n l : Token} {qs ps rest : List Token} {ref : Bool} {line : Int}
    {ts : List Tree} {body : Tree} (hw : w.kind = .kwFunction) (hqs : Written .isReference qs ref)
    (hn : n.kind = .ident) (hl : l.kind = .leftParen) (hps : Written .parameters ps ts) :
    Written .functionDeclaration (w :: (qs ++ n :: l :: (ps ++ rest)))
      (node line .function [.text n.text, .list ts, body, .bool ref]) := by
  intro hchain
  have hname := behind_functionName hw hqs hchain
  obtain ⟨v, hv⟩ := hname.exists_word hn
  have hinside := hname.suffix (by rw [hl]; decide) (List.suffix_cons n _)
  exact ⟨some line, v, ts, body, .bool ref, by rw [hv]; rfl, hps hinside.left⟩

theorem written_functions : ∀ p ∈ functionRules, p.Spells file Written := by
  simp only [functionRules, commaRules, List.forall_mem_append, List.forall_mem_cons,
    List.not_mem_nil, false_imp_iff, implies_true, and_true]
  repeat' apply And.intro
  all_goals apply spells_rule
  · rintro w hw qs ref ⟨-, hqs⟩ n hn l hl ps ts ⟨-, hps⟩ r - b - ss body - c -
    exact written_function hw hqs hn hl hps
  · rintro r hr
    exact Or.inr ⟨r, rfl, hr⟩
  · rintro us x ⟨-, rfl⟩
    exact Or.inl rfl
  · rintro us ts ⟨-, hts⟩ c hc vs t ⟨-, ht⟩ hus
    have hlast := hus.suffix (by rw [hc]; decide) (List.suffix_append us _)
    exact List.forall_mem_append.mpr
      ⟨hts hus.left, List.forall_mem_singleton.mpr (ht hlast.left)⟩
  · rintro us t ⟨-, ht⟩ hus
    exact List.forall_mem_singleton.mpr (ht hus.left)
  · rintro us x - -
    exact fun t ht => absurd ht List.not_mem_nil

/-- The nonterminals of which `Written` says something. -/
def writing : List Nonterminal := [.namespaceName, .className, .commonScalar, .staticScalar,
  .parameter, .parameters, .isReference, .functionDeclaration, .empty]

theorem written_of_not_mem (v : Nonterminal) (hv : v ∉ writing) (us : List Token) (x : v.Value) :
    Written v us x := by
  cases v <;> trivial

theorem written_productions : ∀ p ∈ productions, p.Spells file Written := by
  have hmembers : ∀ p ∈ classRules ++ memberRules, p.Spells file Written :=
    spells_outside written_of_not_mem (by decide)
  have hencaps : ∀ p ∈ encapsRules.dropLast, p.Spells file Written :=
    spells_outside written_of_not_mem (by decide)
  have hempty : encapsRules = encapsRules.dropLast ++ [rule .empty [] ()] := rfl
  have hexpressions : ∀ p ∈ exprRules ++ operatorRules ++ arrayRules ++ argumentRules,
      p.Spells file Written := spells_outside written_of_not_mem (by decide)
  have hvariables : ∀ p ∈ callRules ++ variableRules, p.Spells file Written :=
    spells_outside written_of_not_mem (by decide)
  refine forall_productions (spells_outside written_of_not_mem (by decide)) ?_ ?_ ?_
  · simp only [List.forall_mem_append] at hmembers ⊢
    exact ⟨⟨⟨written_functions, written_parameters⟩, hmembers.1⟩, hmembers.2⟩
  · simp only [List.forall_mem_append] at hvariables hexpressions ⊢
    exact ⟨⟨⟨hexpressions, written_classNames⟩, hvariables.1⟩, hvariables.2⟩
  · rw [hempty]
    simp only [List.forall_mem_append, List.forall_mem_singleton]
    exact ⟨⟨written_scalars, written_staticScalars⟩, hencaps, spells_rule rfl⟩

/-- A function whose default values are shown is read from tokens of a prototype. -/
theorem prototype_of_readAs {t : Tree} (h : ReadAs file .functionDeclaration us t)
    (hus : List.IsChain Follows us) :
    ∃ (line : Option Int) (name : String) (ps : List Tree) (body ref : Tree),
      t = .node .function line [.text name, .list ps, body, ref] ∧
      ((∀ p ∈ ps, p.hasShownDefault = true) →
        ∃ f : Prototype, name = f.name.name.text ∧
          List.Forall₂ Parameter.Matches f.parameters ps) := by
  obtain ⟨line, name, ps, body, ref, rfl, hps⟩ := h.spelled written_productions hus
  refine ⟨line, name.name.text, ps, body, ref, rfl, fun hshown => ?_⟩
  obtain ⟨params, hparams⟩ := exists_forall₂ fun t ht => (hps t ht).shown (hshown t ht)
  exact ⟨⟨name, params⟩, rfl, hparams⟩

end Grammar
end Docblock
