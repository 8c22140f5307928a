import Docblock.Proofs.Grammar.Conservation
import Docblock.Proofs.Source

/-! The nodes without a line in the trees of a source, and the arms behind a colon in its text. -/
namespace Docblock

open Token Grammar

variable {f g : Filter} {file : Option String} {text : List Char} {ts : List Tree}
  {ss : List Symbol} {s : Symbol} {ks ls : List Kind}

/-- What follows the bracket that closes the first of some brackets, `n` of which are open. -/
def behind : Nat → List Kind → Option Kind
  | _, [] => none
  | n, k :: ks =>
    if k ∈ openings then behind (n + 1) ks
    else if k ∈ closings then
      match n with
      | 0 | 1 => ks.head?
      | n + 2 => behind (n + 1) ks
    else behind n ks

/-- The number of further conditions that a colon follows. -/
def colonArms : List Kind → Nat
  | [] => 0
  | k :: ks => (if k = .kwElseif ∧ behind 0 ks = some .colon then 1 else 0) + colonArms ks

/-- Every further condition has something behind it. -/
def Settled : List Kind → Prop
  | [] => True
  | k :: ks => (k = .kwElseif → (behind 0 ks).isSome = true) ∧ Settled ks

theorem behind_append {n : Nat} {k : Kind} (h : behind n ks = some k) (ls : List Kind) :
    behind n (ks ++ ls) = some k := by
  induction ks generalizing n with
  | nil => cases h
  | cons j ks ih =>
    simp only [List.cons_append, behind] at h ⊢
    split at h
    · rw [if_pos ‹_›]
      exact ih h
    · rw [if_neg ‹_›]
      split at h
      · rw [if_pos ‹_›]
        split at h
        · rw [List.head?_append, h]
          rfl
        · rw [List.head?_append, h]
          rfl
        · exact ih h
      · rw [if_neg ‹_›]
        exact ih h

/-- Brackets that are closed again do not matter. -/
theorem behind_of_depth {n m : Nat} (h : depth n ks = some m) (ls : List Kind) :
    behind (n + 1) (ks ++ ls) = behind (m + 1) ls := by
  induction ks generalizing n with
  | nil =>
    cases h
    rfl
  | cons k ks ih =>
    simp only [List.cons_append, behind, depth] at h ⊢
    split at h
    · rw [if_pos ‹_›]
      exact ih h
    · rw [if_neg ‹_›]
      split at h
      · rw [if_pos ‹_›]
        cases n with
        | zero => cases h
        | succ n => exact ih h
      · rw [if_neg ‹_›]
        exact ih h

theorem Settled.append (hk : Settled ks) (hl : Settled ls) : Settled (ks ++ ls) := by
  induction ks with
  | nil => exact hl
  | cons k ks ih =>
    refine ⟨fun he => ?_, ih hk.2⟩
    obtain ⟨j, hj⟩ := Option.isSome_iff_exists.mp (hk.1 he)
    exact Option.isSome_iff_exists.mpr ⟨j, behind_append hj ls⟩

theorem colonArms_append (hk : Settled ks) :
    colonArms (ks ++ ls) = colonArms ks + colonArms ls := by
  induction ks with
  | nil => simp [colonArms]
  | cons k ks ih =>
    have hsame : (k = .kwElseif ∧ behind 0 (ks ++ ls) = some .colon) ↔
        (k = .kwElseif ∧ behind 0 ks = some .colon) := by
      refine and_congr_right fun he => ?_
      obtain ⟨j, hj⟩ := Option.isSome_iff_exists.mp (hk.1 he)
      rw [behind_append hj, hj]
    simp only [List.cons_append, colonArms, hsame, ih hk.2, Nat.add_assoc]

namespace Grammar

/-- The nonterminals that a statement may start with: all of them start with a token that is no
colon. -/
def starters : List Nonterminal := [
  .statement, .expr, .scalar, .commonScalar, .classConstant, .className, .namespaceName, .varExpr,
  .baseWithCalls, .functionCall, .baseVar, .indirectVar, .staticMember, .varClassName,
  .referenceVar, .compoundVar, .varWithoutObjects]

def starts : List Symbol → Bool
  | [] => false
  | .t k :: _ => k != .colon
  | .n v :: _ => starters.contains v

/-- What follows a condition among some symbols. -/
def arm? : List Symbol → Option Symbol
  | .t .leftParen :: .n _ :: .t .rightParen :: s :: _ => some s
  | _ => none

/-- A colon or a statement follows every further condition. -/
def armsFit : List Symbol → Bool
  | [] => true
  | s :: ss => (s != .t .kwElseif || arm? ss == some (.t .colon) || arm? ss == some (.n .statement))
      && armsFit ss

/-- The number of further conditions among some symbols that a colon follows. -/
def armsIn : List Symbol → Nat
  | [] => 0
  | s :: ss => (if s = .t .kwElseif ∧ arm? ss = some (.t .colon) then 1 else 0) + armsIn ss

theorem productions_fit : ∀ p ∈ productions,
    armsFit p.rhs = true ∧ armsIn p.rhs = p.makes ∧
      (starters.contains p.lhs = true → starts p.rhs = true) := by
  have hall : (productions.all fun p => armsFit p.rhs && armsIn p.rhs == p.makes &&
    (!starters.contains p.lhs || starts p.rhs)) = true := by decide +kernel
  intro p hp
  simpa [and_assoc, or_iff_not_imp_left] using List.all_eq_true.mp hall p hp

theorem Forest.yield_token {k : Kind} (forest : Forest (.t k :: ss)) :
    ∃ (t : Token) (rest : Forest ss), t.kind = k ∧ forest.yield = t :: rest.yield := by
  generalize hs : Symbol.t k :: ss = ss' at forest
  cases forest with
  | nil => cases hs
  | token t rest =>
    cases hs
    exact ⟨t, rest, rfl, rfl⟩
  | node => cases hs

theorem Forest.yield_node {v : Nonterminal} (forest : Forest (.n v :: ss)) :
    ∃ (d : Derivation v) (rest : Forest ss), forest.yield = d.yield ++ rest.yield := by
  generalize hs : Symbol.n v :: ss = ss' at forest
  cases forest with
  | nil => cases hs
  | token => cases hs
  | node p hp children rest =>
    cases hs
    exact ⟨.node p hp children .nil, rest, by simp [yield]⟩

theorem Forest.starts_yield (forest : Forest ss) (h : starts ss = true) :
    ∃ t rest, forest.yield = t :: rest ∧ t.kind ≠ .colon := by
  induction forest with
  | nil => cases h
  | token t rest => exact ⟨t, rest.yield, rfl, by simpa [starts] using h⟩
  | node p hp children rest ihc =>
    obtain ⟨t, more, hyield, ht⟩ := ihc ((productions_fit p hp).2.2 h)
    exact ⟨t, more ++ rest.yield, by simp [yield, hyield], ht⟩

/-- Behind a condition comes what the symbols say. -/
theorem Forest.behind_yield (forest : Forest ss) (h : arm? ss = some s) :
    ∃ rest, ∃ tail : Forest (s :: rest),
      behind 0 (forest.yield.map Token.kind) = (tail.yield.map Token.kind).head? := by
  simp only [arm?] at h
  split at h
  · cases h
    rename_i v s rest
    obtain ⟨l, forest₁, hl, hyield⟩ := forest.yield_token
    obtain ⟨d, forest₂, hyield₁⟩ := forest₁.yield_node
    obtain ⟨r, tail, hr, hyield₂⟩ := forest₂.yield_token
    refine ⟨rest, tail, ?_⟩
    rw [hyield, hyield₁, hyield₂]
    simp only [List.map_cons, List.map_append, hl, hr]
    have hopen : ∀ ks, behind 0 (Kind.leftParen :: ks) = behind 1 ks := fun ks => rfl
    rw [hopen, behind_of_depth d.depth_yield]
    rfl
  · cases h

/-- A colon comes behind a condition where the symbols say so, and not where a statement does. -/
theorem Forest.behind_arm (forest : Forest ss)
    (h : arm? ss = some (.t .colon) ∨ arm? ss = some (.n .statement)) :
    (behind 0 (forest.yield.map Token.kind)).isSome = true ∧
      (behind 0 (forest.yield.map Token.kind) = some .colon ↔ arm? ss = some (.t .colon)) := by
  obtain ha | ha := h
  · obtain ⟨_, tail, hbehind⟩ := forest.behind_yield ha
    obtain ⟨c, _, hc, hyield⟩ := tail.yield_token
    simp [hbehind, hyield, hc, ha]
  · obtain ⟨_, tail, hbehind⟩ := forest.behind_yield ha
    obtain ⟨t, _, hyield, ht⟩ := tail.starts_yield rfl
    simp [hbehind, hyield, ht, ha]

/-- The further conditions with a colon in a forest are those of its actions and its symbols. -/
theorem Forest.arms_yield (forest : Forest ss) (h : armsFit ss = true) :
    Settled (forest.yield.map Token.kind) ∧
      colonArms (forest.yield.map Token.kind) = forest.makes + armsIn ss := by
  induction forest with
  | nil => exact ⟨trivial, rfl⟩
  | @token t ss rest ih =>
    simp only [armsFit, Bool.and_eq_true, Bool.or_eq_true, beq_iff_eq, bne_iff_ne, ne_eq,
      Symbol.t.injEq, or_assoc] at h
    obtain ⟨hfit, hss⟩ := h
    obtain ⟨hsettled, harms⟩ := ih hss
    have harm := fun he => rest.behind_arm (hfit.resolve_left (not_not_intro he))
    refine ⟨⟨fun he => (harm he).1, hsettled⟩, ?_⟩
    have hsame : (t.kind = .kwElseif ∧ behind 0 (rest.yield.map Token.kind) = some .colon) ↔
        (t.kind = .kwElseif ∧ arm? ss = some (.t .colon)) := and_congr_right fun he => (harm he).2
    simp only [yield, List.map_cons, colonArms, armsIn, makes, hsame, harms, Symbol.t.injEq]
    omega
  | node p hp children rest ihc ihr =>
    obtain ⟨hfit, harms, -⟩ := productions_fit p hp
    obtain ⟨hsettled, hbelow⟩ := ihc hfit
    have hrest : armsFit _ = true := (Bool.and_eq_true _ _ |>.mp h).2
    obtain ⟨hsettled', hafter⟩ := ihr hrest
    rw [yield, List.map_append]
    refine ⟨hsettled.append hsettled', ?_⟩
    rw [colonArms_append hsettled, hbelow, hafter, harms, makes]
    simp [armsIn, Nat.add_assoc]

end Grammar

/-- In the trees of a source, a node that is no comment and has no line is the block of an arm, and
there are as many of them as further conditions with a colon behind them in the text. -/
theorem parse_lines (h : f.parse file text = (.ok ts, g)) :
    (∀ t ∈ Tree.nodesIn ts, t.lineless = true → ∃ line e ss,
      t = .node .block none [.list ss] ∧ .node .elseIf (some line) [e, t] ∈ Tree.nodesIn ts) ∧
    (Tree.nodesIn ts).countP Tree.lineless =
      colonArms ((f.input text).stream.tokens.map Token.kind) := by
  obtain ⟨-, -, d, hd, hv⟩ := parse_ok h
  obtain ⟨-, harms⟩ := d.arms_yield rfl
  refine ⟨fun t ht hl => Tree.inArm_of_fields (fun u hu => (d.made hv u hu).lined.inArm) ht hl, ?_⟩
  rw [← hd, harms]
  exact d.bareIn_trees hv

/-- Of the two further conditions, one has a colon behind it and the other one a statement. -/
theorem parse_lines_two :
    ∃ ts g, (Filter.fresh []).parse none
        "<?php if ($a): elseif ($b): endif; if ($a) ; elseif ($b) ;".toList = (.ok ts, g) ∧
      (Tree.nodesIn ts).countP Tree.lineless = 1 := by
  obtain ⟨ts, g, h⟩ := exists_parse_ok (Filter.fresh []) none
    "<?php if ($a): elseif ($b): endif; if ($a) ; elseif ($b) ;".toList
    (by rw [String.toList_ofList]; decide +kernel)
  refine ⟨ts, g, h, (parse_lines h).2.trans ?_⟩
  rw [String.toList_ofList]
  decide +kernel

/-- A node that is no comment may have no line. -/
theorem not_all_lined :
    ∃ ts g, (Filter.fresh []).parse none "<?php if ($a): elseif ($b): endif;".toList = (.ok ts, g) ∧
      ∃ t ∈ Tree.nodesIn ts, t.isOf [.comment] = false ∧ t.line? = none := by
  obtain ⟨ts, g, h, hany⟩ := exists_parse_any (Filter.fresh []) none
    "<?php if ($a): elseif ($b): endif;".toList
    (p := fun ts => (Tree.nodesIn ts).any fun t => !t.isOf [.comment] && t.line?.isNone)
    (by rw [String.toList_ofList]; decide +kernel)
  obtain ⟨t, ht, hl⟩ := List.any_eq_true.mp hany
  exact ⟨ts, g, h, t, ht, by simpa using hl⟩

end Docblock
