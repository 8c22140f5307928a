import Docblock.Script.Convert
import Docblock.Proofs.Result
import Docblock.Proofs.Script.Behaviour

/-! Expressions as events: what the script of an expression asks for is what the expression does. -/
namespace Docblock

open Docblock.Flow Conversion

namespace Script

/-- A statement of one expression is that expression. -/
def bare : Script → Script
  | .expr _ v => v
  | s => s

/-- The truth of an expression. Numbers and texts are literals. -/
def verdict : Script → Verdict Script
  | .expr _ v => v.verdict
  | .unaryOp _ .not s => s.verdict.negate
  | .num _ v | .str _ v => .known v.truthy
  | s => .asked s false

/-- Whether an expression, or a statement of one, is an event as it stands. -/
def isAction : Script → Bool
  | .expr _ (.call _ _ _ _) => true
  | .expr _ _ | .pass _ | .breakLoop _ | .continueLoop _ | .ifElse _ _ _ _ | .whileLoop _ _ _
  | .num _ _ | .str _ _ | .unaryOp _ .not _ => false
  | _ => true

/-- Whether a statement is more than an expression. -/
def isControl : Script → Bool
  | .pass _ | .breakLoop _ | .continueLoop _ | .ifElse _ _ _ _ | .whileLoop _ _ _ => true
  | _ => false

theorem isControl_of_isAction {s : Script} (h : s.isAction = true) : s.isControl = false := by
  cases s <;> first | rfl | cases h

theorem verdict_of_isAction {s : Script} (h : s.isAction = true) :
    s.verdict = .asked s.bare false := by
  cases s with
  | expr l v => cases v <;> first | rfl | cases h
  | unaryOp l op v => cases op <;> first | rfl | cases h
  | _ => first | rfl | cases h

end Script

namespace Tree

/-- The text of a literal, or of literals that are joined. -/
def joined? : Tree → Option String
  | .text s => some s
  | .node .binaryOp _ [.text ".", left, .text s] => (joined? left).map (· ++ s)
  | _ => none

/-- The truth of a literal. The text of a zero counts as false. -/
def literalTruth? : Tree → Option Bool
  | .bool b => some b
  | .int n => some (n != 0)
  | .float x => some x.isNonzero
  | t => t.joined?.map fun s => s != "" && s != "0"

/-- The truth of an expression. Silence changes nothing about it, and what is empty is not both set
and true. -/
def verdict : Tree → Verdict Tree
  | .node .silence _ [e] => e.verdict
  | .node .unaryOp _ [.text "!", e] => e.verdict.negate
  | .node .empty line [e] =>
    .asked (.node .binaryOp line [.text "&&", .node .isSet line [.list [e]], e]) true
  | t =>
    match t.literalTruth? with
    | some b => .known b
    | none => .asked t false

/-- The kinds of expression whose scripts are events as they stand. -/
def actionKinds : List Kind := [
  .assignment, .listAssignment, .newObject, .cloneObject, .print, .closure, .assignOp,
  .ternaryOp, .preIncDec, .postIncDec, .cast, .isSet, .eval, .includeFile, .requireFile,
  .exit, .magicConstant, .constant, .var, .functionCall, .array, .arrayOffset, .stringOffset,
  .objectProperty, .staticProperty, .methodCall, .staticMethodCall]

def isExpression : Tree → Bool
  | .bool _ | .int _ | .float _ | .text _ => true
  | .node .silence _ [e] => e.isExpression
  | .node .unaryOp _ [_, e] => e.isExpression
  | .node .binaryOp _ [_, _, _] | .node .empty _ [_] => true
  | .node k _ _ => actionKinds.contains k
  | _ => false

/-- Whether an expression is the text of a zero, negated or not. -/
def isZero : Tree → Bool
  | .node .silence _ [e] => e.isZero
  | .node .unaryOp _ [.text "!", e] => e.isZero
  | t => t.joined? == some "0"

end Tree

namespace Conversion

/-- Whatever comes out has a property. -/
def Yields {α : Type} (P : α → Prop) (x : Except Error α) : Prop := ∀ a, x = .ok a → P a

variable {P : Script → Prop} {line : Option Int} {s : Script}

theorem yields_ok {α : Type} {P : α → Prop} {a : α} (h : P a) : Yields P (.ok a) := by
  rintro _ ⟨⟩
  exact h

theorem yields_error {α : Type} {P : α → Prop} (e : Error) : Yields P (.error e) :=
  fun _ h => nomatch h

theorem yields_bind {α β : Type} {P : β → Prop} {x : Except Error α} {f : α → Except Error β}
    (h : ∀ a, Yields P (f a)) : Yields P (x >>= f) := by
  cases x with
  | error e => exact yields_error e
  | ok a => exact h a

/-- The script is an event as it stands. -/
abbrev YieldsAction (r : Result) : Prop := Yields (fun s => s.isAction = true) r

theorem array_action (nodes : Part) : YieldsAction (array line nodes) := by
  unfold array
  split
  · exact yields_ok rfl
  · split
    · exact yields_error _
    · refine yields_bind fun key => ?_
      split
      · exact yields_bind fun _ => yields_ok rfl
      · exact yields_bind fun _ => yields_ok rfl
    · exact yields_error _

theorem isSet_action (p : Part) : YieldsAction (isSet line p) := by
  unfold isSet
  split
  · exact yields_bind fun _ => yields_bind fun _ => yields_ok rfl
  · exact yields_bind fun _ => yields_bind fun _ => yields_ok rfl
  · exact yields_bind fun _ => yields_ok rfl
  · exact yields_bind fun _ => yields_ok rfl

theorem assignment_action (target : Part) (value : Result) :
    YieldsAction (assignment line target value) := by
  unfold assignment
  split
  · exact yields_bind fun _ => yields_bind fun _ => yields_ok rfl
  · exact yields_bind fun _ => yields_bind fun _ => yields_bind fun _ => yields_ok rfl
  · exact yields_bind fun _ => yields_bind fun _ => yields_ok rfl

theorem constant_action (name : Tree) : YieldsAction (constant line name) := by
  unfold constant
  split
  · split <;> exact yields_ok rfl
  · exact yields_error _

theorem readVar_action (name : Tree) : YieldsAction (readVar line name) := by
  unfold readVar
  refine yields_bind fun _ => ?_
  split <;> exact yields_ok rfl

theorem call_action (name params : Part) : YieldsAction (call line name params) := by
  unfold call
  split
  · exact yields_bind fun _ => yields_bind fun _ => yields_ok rfl
  · exact yields_bind fun _ => yields_bind fun _ => yields_bind fun _ => yields_ok rfl

theorem property_action (node name : Part) : YieldsAction (property line node name) := by
  unfold property
  split
  · exact yields_bind fun _ => yields_bind fun _ => yields_ok rfl
  · exact yields_bind fun _ => yields_ok rfl

/-- A node that does not have the parts of its kind is called by its name. -/
theorem convertNode_of_length (t : Tree) {k : Tree.Kind} {ps : List Part}
    (h : ps.length ≠ k.fields.length) : convertNode t k line ps = .ok (Part.fallback line t) := by
  unfold convertNode
  split
  all_goals first | rfl | exact absurd rfl h

theorem isSetAll_action (t : Tree) (nodes : Part) :
    YieldsAction (convertNode t .isSet line [nodes]) := by
  unfold convertNode
  refine yields_bind fun n => ?_
  split
  · refine yields_bind fun items => ?_
    split
    · exact isSet_action _
    · exact yields_ok rfl
  · exact yields_ok rfl

theorem exit_action (t : Tree) (expr : Part) :
    YieldsAction (convertNode t .exit line [expr]) := by
  unfold convertNode
  dsimp only
  split
  · exact yields_bind fun _ => yields_ok rfl
  · exact yields_bind fun _ => yields_bind fun _ => yields_ok rfl

theorem staticProperty_action (t : Tree) (node name : Part) :
    YieldsAction (convertNode t .staticProperty line [node, name]) := by
  unfold convertNode
  dsimp only
  split <;> exact yields_bind fun _ => yields_ok rfl

theorem convertNode_action (t : Tree) {k : Tree.Kind} (hk : Tree.actionKinds.contains k = true)
    (ps : List Part) : YieldsAction (convertNode t k line ps) := by
  by_cases hlength : ps.length = k.fields.length
  swap
  · rw [convertNode_of_length t hlength]
    exact yields_ok rfl
  cases k with
  | closure | cloneObject | eval | magicConstant | stringOffset => exact yields_ok rfl
  | array =>
    obtain ⟨nodes, rfl⟩ := List.length_eq_one_iff.mp hlength
    exact array_action nodes
  | print =>
    obtain ⟨node, rfl⟩ := List.length_eq_one_iff.mp hlength
    exact yields_bind fun _ => yields_ok rfl
  | exit =>
    obtain ⟨expr, rfl⟩ := List.length_eq_one_iff.mp hlength
    exact exit_action t expr
  | isSet =>
    obtain ⟨nodes, rfl⟩ := List.length_eq_one_iff.mp hlength
    exact isSetAll_action t nodes
  | constant =>
    obtain ⟨name, rfl⟩ := List.length_eq_one_iff.mp hlength
    exact constant_action name.tree
  | var =>
    obtain ⟨name, rfl⟩ := List.length_eq_one_iff.mp hlength
    exact readVar_action name.tree
  | listAssignment | arrayOffset | cast =>
    obtain ⟨first, second, rfl⟩ := List.length_eq_two.mp hlength
    exact yields_bind fun _ => yields_bind fun _ => yields_ok rfl
  | preIncDec | postIncDec =>
    obtain ⟨op, expr, rfl⟩ := List.length_eq_two.mp hlength
    exact yields_bind fun _ => assignment_action expr _
  | objectProperty =>
    obtain ⟨node, name, rfl⟩ := List.length_eq_two.mp hlength
    exact property_action node name
  | staticProperty =>
    obtain ⟨node, name, rfl⟩ := List.length_eq_two.mp hlength
    exact staticProperty_action t node name
  | includeFile | requireFile =>
    obtain ⟨expr, once, rfl⟩ := List.length_eq_two.mp hlength
    exact yields_bind fun _ => yields_ok rfl
  | functionCall | newObject =>
    obtain ⟨name, params, rfl⟩ := List.length_eq_two.mp hlength
    exact call_action name params
  | assignment =>
    obtain ⟨target, expr, ref, rfl⟩ := List.length_eq_three.mp hlength
    exact assignment_action target expr.script
  | assignOp =>
    obtain ⟨op, left, right, rfl⟩ := List.length_eq_three.mp hlength
    exact yields_bind fun _ => assignment_action left _
  | ternaryOp =>
    obtain ⟨expr, yes, no, rfl⟩ := List.length_eq_three.mp hlength
    exact yields_bind fun _ => yields_bind fun _ => yields_bind fun _ => yields_ok rfl
  | methodCall =>
    obtain ⟨node, name, params, rfl⟩ := List.length_eq_three.mp hlength
    exact yields_bind fun _ => yields_bind fun _ => yields_ok rfl
  | staticMethodCall =>
    obtain ⟨cls, name, params, rfl⟩ := List.length_eq_three.mp hlength
    exact yields_bind fun _ => yields_ok rfl
  | _ => cases hk

theorem unary_action {op : Tree} (hop : op ≠ .text "!") (e : Result) :
    YieldsAction (unary line op e) := by
  unfold unary
  cases op with
  | text sign =>
    simp only [key, bind, Except.bind, Option.bind]
    split
    · exact yields_error _
    · rename_i o ho
      have hne : o ≠ .not := by
        rintro rfl
        obtain ⟨front, back, heq, -⟩ := List.lookup_eq_some_iff.mp ho
        have hm : (sign, .not) ∈ unaryOps := by simp [heq]
        exact hop (by simpa [unaryOps] using hm)
      cases e with
      | error e => exact yields_error e
      | ok s => cases o <;> first | exact yields_ok rfl | exact absurd rfl hne
  | list | node => exact yields_error _
  | null | bool | int | float => exact yields_error _

theorem binary_action {op : Tree} (hop : op.same (.text ".") = false) (left right : Part) :
    YieldsAction (binary line op left right) := by
  unfold binary
  rw [if_neg (by simp [hop])]
  refine yields_bind fun name => ?_
  split
  · exact yields_bind fun _ => yields_bind fun _ => yields_ok rfl
  · split
    · exact yields_bind fun _ => yields_bind fun _ => yields_ok rfl
    · split
      · exact yields_error _
      · exact yields_bind fun _ => yields_bind fun _ => yields_ok rfl

/-- A percent sign of a text is written twice in a pattern, and once when it is filled in. -/
theorem plainText_literal (text : String) :
    String.ofList (plainText (literal text).toList) = text := by
  have hplain : ∀ cs : List Char,
      plainText (cs.flatMap fun c => if c = '%' then ['%', '%'] else [c]) = cs := by
    intro cs
    induction cs with
    | nil => rfl
    | cons c cs ih =>
      rw [List.flatMap_cons]
      split
      · rename_i hc
        rw [hc]
        exact congrArg ('%' :: ·) ih
      · rename_i hc
        rw [List.singleton_append, plainText, ih]
        simp [hc]
  simp [literal, hplain]

theorem literal_append (s t : String) : literal (s ++ t) = literal s ++ literal t := by
  simp [literal]

/-- Joined literals make a pattern without places. -/
theorem format_joined {t : Tree} {a : String} (h : t.joined? = some a) (b : String) :
    format (part t) (part (.text b)) = (literal (a ++ b), []) := by
  fun_induction Tree.joined? t generalizing a b with
  | case1 s =>
    cases h
    rw [literal_append]
    rfl
  | case2 line left s ih =>
    obtain ⟨a', ha, rfl⟩ := Option.map_eq_some_iff.mp h
    have hformat :
        format (part (.node .binaryOp line [.text ".", left, .text s])) (part (.text b)) =
          extend (format (part left) (part (.text s))) (part (.text b)) := rfl
    rw [hformat, ih ha s, literal_append (a' ++ s) b]
    rfl
  | case3 => cases h

mutual
theorem part_tree (t : Tree) : (part t).tree = t := by
  match t with
  | .list ts =>
    rw [part, Part.ofList, partAll_trees ts]
    rfl
  | .null | .bool _ | .int _ | .float _ | .text _ | .node _ _ _ => rfl

theorem partAll_trees (ts : List Tree) : (partAll ts).map Part.tree = ts := by
  match ts with
  | [] => rfl
  | t :: ts => rw [partAll, List.map_cons, part_tree t, partAll_trees ts]
end

/-- What is not text leaves a place in a pattern. -/
theorem extend_places {p : String × List Part} {right : Part}
    (h : p.2 ≠ [] ∨ ∀ s, right.tree ≠ .text s) : (extend p right).2 ≠ [] := by
  unfold extend
  split
  · rename_i s hs
    exact h.resolve_right fun hn => hn s hs
  · simp

theorem format_places_right (left : Part) {right : Part} (h : ∀ s, right.tree ≠ .text s) :
    (format left right).2 ≠ [] := by
  unfold format
  split <;> exact extend_places (Or.inr h)

theorem format_other {t : Tree} (ht : ∀ s, t ≠ .text s)
    (hj : ∀ line left right, t ≠ .node .binaryOp line [.text ".", left, right]) (right : Part) :
    format (part t) right = extend ("%s", [part t]) right := by
  unfold format
  split
  · rename_i line fields _ first left last heq
    have htree : t = .node .binaryOp line (.text "." :: fields) :=
      (part_tree t).symm.trans (congrArg Part.tree heq)
    subst htree
    have hparts : partAll (.text "." :: fields) = [first, left, last] := congrArg Part.parts heq
    have hfields := congrArg (List.map Part.tree) hparts
    rw [partAll_trees] at hfields
    obtain ⟨-, rfl⟩ := List.cons.inj hfields
    exact absurd rfl (hj line left.tree last.tree)
  · rename_i heq
    exact absurd ((part_tree t).symm.trans (congrArg Part.tree heq)) (ht _)
  · rfl

/-- What is joined to something that is no text leaves a place in the pattern. -/
theorem format_places {t : Tree} (h : t.joined? = none) (right : Part) :
    (format (part t) right).2 ≠ [] := by
  fun_induction Tree.joined? t generalizing right with
  | case1 s => cases h
  | case2 line left s ih =>
    have hformat : format (part (.node .binaryOp line [.text ".", left, .text s])) right =
      extend (format (part left) (part (.text s))) right := rfl
    rw [hformat]
    exact extend_places (Or.inl (ih (Option.map_eq_none_iff.mp h) _))
  | case3 t ht hj =>
    by_cases hjoin : ∃ line left last, t = .node .binaryOp line [.text ".", left, last]
    · obtain ⟨line, left, last, rfl⟩ := hjoin
      have hformat : format (part (.node .binaryOp line [.text ".", left, last])) right =
        extend (format (part left) (part last)) right := rfl
      rw [hformat]
      refine extend_places (Or.inl (format_places_right _ fun s hs => ?_))
      rw [part_tree] at hs
      exact hj line left s (hs ▸ rfl)
    · rw [format_other ht (fun line left last he => hjoin ⟨line, left, last, he⟩)]
      exact extend_places (Or.inl (by simp))

theorem eq_text_of_same {t : Tree} {s : String} (h : t.same (.text s) = true) : t = .text s := by
  cases t with
  | text u => rw [show u = s by simpa [Tree.same] using h]
  | null | bool | int | float | list | node => simp [Tree.same, Tree.sameNumber, Tree.number?] at h

/-- The script of joined literals is their text. -/
theorem convert_joined {t : Tree} {text : String} (h : t.joined? = some text) :
    ∃ line, convert t = .ok (.str line (.text text)) := by
  unfold Tree.joined? at h
  split at h
  · cases h
    exact ⟨_, rfl⟩
  · rename_i line left s
    obtain ⟨a, ha, rfl⟩ := Option.map_eq_some_iff.mp h
    have hconvert : convert (.node .binaryOp line [.text ".", left, .text s]) =
      binary line (.text ".") (part left) (part (.text s)) := rfl
    refine ⟨line, ?_⟩
    rw [hconvert, binary, if_pos (by simp [Tree.same]), format_joined ha]
    simp only [List.isEmpty_nil, if_true, plainText_literal]
    rfl
  · cases h

theorem convert_join_action {line : Option Int} {op left right : Tree}
    (h : (Tree.node .binaryOp line [op, left, right]).joined? = none) :
    YieldsAction (convert (.node .binaryOp line [op, left, right])) := by
  have hconvert : convert (.node .binaryOp line [op, left, right]) =
    binary line (part op).tree (part left) (part right) := rfl
  rw [hconvert, part_tree]
  cases hop : op.same (.text ".") with
  | false => exact binary_action hop _ _
  | true =>
    cases eq_text_of_same hop
    have hplaces : (format (part left) (part right)).2 ≠ [] := by
      by_cases hright : ∃ s, right = .text s
      · obtain ⟨s, rfl⟩ := hright
        exact format_places (Option.map_eq_none_iff.mp h) _
      · refine format_places_right _ fun s hs => hright ⟨s, ?_⟩
        rwa [part_tree] at hs
    rw [binary, if_pos hop]
    simp only [List.isEmpty_iff, hplaces, if_false]
    exact yields_bind fun _ => yields_ok rfl

/-- A script stands for an event of a tree. -/
def Names (e : Tree) (v : Script) : Prop := ∃ s, convert e = .ok s ∧ s.bare = v

/-- The script of an expression asks for the same event, with the same truth unless that is the
truth of the text of a zero. -/
structure Stands (e : Tree) (s : Script) : Prop where
  event : e.verdict.Matches Names s.verdict
  truth : e.isZero = false → e.verdict.truth? = s.verdict.truth?
  expression : s.isControl = false

theorem stands_of_isAction {e : Tree} (hv : e.verdict = .asked e false) (hc : convert e = .ok s)
    (hs : s.isAction = true) : Stands e s where
  event := by
    rw [hv, Script.verdict_of_isAction hs]
    exact .asked ⟨s, hc, rfl⟩ false
  truth _ := by
    rw [hv, Script.verdict_of_isAction hs]
    rfl
  expression := Script.isControl_of_isAction hs

theorem Verdict.truth?_negate {E : Type} (v : Verdict E) :
    v.negate.truth? = v.truth?.map (!·) := by
  cases v <;> rfl

/-- A negation stands for a negation. -/
theorem Stands.negate {e : Tree} (h : Stands e s) :
    Stands (.node .unaryOp line [.text "!", e]) (.unaryOp line .not s) where
  event := h.event.negate
  truth hz := by
    have ht := h.truth hz
    rw [Tree.verdict, Script.verdict, Verdict.truth?_negate, Verdict.truth?_negate, ht]
  expression := rfl

/-- What is empty is not both set and true. -/
theorem stands_empty {e : Tree} (hc : convert (.node .empty line [e]) = .ok s) :
    Stands (.node .empty line [e]) s := by
  obtain ⟨set, hset, hc⟩ := ok_of_bind hc
  obtain ⟨v, hv, hc⟩ := ok_of_bind hc
  cases hc
  have hboth : convert (.node .binaryOp line [.text "&&", .node .isSet line [.list [e]], e]) =
      .ok (.boolOp line .and set v) := by
    have hleft : (part (.node .isSet line [.list [e]])).script = .ok set := hset
    have hconvert : convert (.node .binaryOp line [.text "&&", .node .isSet line [.list [e]], e]) =
      binary line (.text "&&") (part (.node .isSet line [.list [e]])) (part e) := rfl
    have hop : (key (.text "&&")) = .ok (some "&&") := rfl
    have hand : boolOps.lookup "&&" = some .and := rfl
    rw [hconvert, binary, if_neg (by simp [Tree.same]), hop]
    simp only [bind, Except.bind, Option.bind, hand, hleft, hv]
    rfl
  exact ⟨.asked ⟨_, hboth, rfl⟩ true, fun _ => rfl, rfl⟩

/-- The truth of a literal is that of its script, unless it is the text of a zero. -/
theorem stands_literal {e : Tree} {b : Bool} (hv : e.verdict = .known b)
    (hb : e.literalTruth? = some b) (hz : e.isZero = (e.joined? == some "0"))
    (hc : convert e = .ok s) : Stands e s := by
  unfold Tree.literalTruth? at hb
  split at hb
  · cases hb
    cases hc
    exact ⟨.known _ _, fun _ => rfl, rfl⟩
  · cases hb
    cases hc
    exact ⟨.known _ _, fun _ => rfl, rfl⟩
  · cases hb
    cases hc
    exact ⟨.known _ _, fun _ => rfl, rfl⟩
  · obtain ⟨text, htext, rfl⟩ := Option.map_eq_some_iff.mp hb
    obtain ⟨line, hline⟩ := convert_joined htext
    cases hline.symm.trans hc
    refine ⟨?_, fun hzero => ?_, rfl⟩
    · rw [hv]
      exact .known _ _
    · rw [hz, htext] at hzero
      have hne : text ≠ "0" := by simpa using hzero
      have hempty : text.isEmpty = (text == "") := by
        rw [Bool.eq_iff_iff, String.isEmpty_iff, beq_iff_eq]
      simp [hv, Verdict.truth?, Script.verdict, Tree.truthy, hne, hempty, bne]

theorem convert_stands {e : Tree} (he : e.isExpression = true) (hc : convert e = .ok s) :
    Stands e s := by
  fun_induction Tree.verdict e generalizing s with
  | case1 line e ih =>
    have h := ih he hc
    exact ⟨h.event, h.truth, h.expression⟩
  | case2 line e ih =>
    obtain ⟨v, hv, hs⟩ := ok_of_bind (show (convert e >>= fun v => pure _) = .ok s from hc)
    cases hs
    exact (ih he hv).negate
  | case3 line e => exact stands_empty hc
  | case4 e hsilence hnot hempty b hb =>
    refine stands_literal ?_ hb ?_ hc
    · rw [Tree.verdict, hb]
      all_goals assumption
    · rw [Tree.isZero]
      all_goals assumption
  | case5 e hsilence hnot hempty hb =>
    have hv : e.verdict = .asked e false := by
      rw [Tree.verdict, hb]
      all_goals assumption
    refine stands_of_isAction hv hc ?_
    unfold Tree.isExpression at he
    split at he
    · cases hb
    · cases hb
    · cases hb
    · cases hb
    · exact absurd rfl (hsilence _ _)
    · rename_i line op e
      have hop : op ≠ .text "!" := by
        rintro rfl
        exact hnot _ _ rfl
      have hconvert : convert (.node .unaryOp line [op, e]) =
        unary line (part op).tree (convert e) := rfl
      rw [hconvert, part_tree] at hc
      exact unary_action hop _ s hc
    · exact convert_join_action (Option.map_eq_none_iff.mp hb) s hc
    · exact absurd rfl (hempty _ _)
    · exact convertNode_action _ he _ s hc
    · cases he

end Conversion
end Docblock
