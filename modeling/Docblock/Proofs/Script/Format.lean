import Docblock.Proofs.Script.Expression
import Docblock.Proofs.Tree.Shape

/-! Joined text: the pattern of a join, filled in with the texts of its places, is the text of the
join. -/
namespace Docblock

namespace Tree

/-- What is joined, from the left. Only a join on the left is taken apart. -/
def operands : Tree → List Tree
  | .node .binaryOp _ [.text ".", left, right] => operands left ++ [right]
  | t => [t]

/-- A text for every tree, where a text stands for itself and a join for its sides. -/
structure Wording (w : Tree → String) : Prop where
  text (s : String) : w (.text s) = s
  join (line : Option Int) (left right : Tree) :
    w (.node .binaryOp line [.text ".", left, right]) = w left ++ w right

/-- The wording of a tree is that of all that is joined in it. -/
theorem Wording.operands {w : Tree → String} (h : Wording w) (t : Tree) :
    t.operands.flatMap (fun u => (w u).toList) = (w t).toList := by
  fun_induction Tree.operands t with
  | case1 line left right ih => simp [h.join, ih]
  | case2 t => simp

/-- A tree as it is printed, but for joins. -/
def wording : Tree → String
  | .node .binaryOp _ [.text ".", left, right] => wording left ++ wording right
  | t => t.display

theorem wording_join (line : Option Int) (left right : Tree) :
    wording (.node .binaryOp line [.text ".", left, right]) = wording left ++ wording right := by
  rw [wording]

theorem wording_lawful : Wording wording where
  text _ := rfl
  join := wording_join

end Tree

namespace Conversion

open Docblock.Tree (Wording operands isText)

variable {w : Tree → String} {p q a b : List Char} {ss ts : List String}

/-- A pattern filled in: `%%` is a percent sign, and `%s` takes the next text. There is no result if
the pattern asks for anything else, a text is missing, or one is left. -/
def fill : List Char → List String → Option (List Char)
  | '%' :: '%' :: cs, ss => (fill cs ss).map ('%' :: ·)
  | '%' :: 's' :: cs, s :: ss => (fill cs ss).map (s.toList ++ ·)
  | '%' :: _, _ => none
  | c :: cs, ss => (fill cs ss).map (c :: ·)
  | [], [] => some []
  | [], _ :: _ => none

theorem fill_sign (cs : List Char) : fill ('%' :: '%' :: cs) ss = (fill cs ss).map ('%' :: ·) := by
  rw [fill]

theorem fill_place (cs : List Char) (s : String) :
    fill ('%' :: 's' :: cs) (s :: ss) = (fill cs ss).map (s.toList ++ ·) := by
  rw [fill]

theorem fill_char {c : Char} (hc : c ≠ '%') (cs : List Char) :
    fill (c :: cs) ss = (fill cs ss).map (c :: ·) := by
  rw [fill]
  all_goals simp [hc]

/-- Patterns one after the other take their texts one after the other. -/
theorem fill_append (hp : fill p ss = some a) (hq : fill q ts = some b) :
    fill (p ++ q) (ss ++ ts) = some (a ++ b) := by
  fun_induction fill p ss generalizing a with
  | case1 cs ss ih =>
    obtain ⟨a, ha, rfl⟩ := Option.map_eq_some_iff.mp hp
    rw [List.cons_append, List.cons_append, fill_sign, ih ha]
    rfl
  | case2 cs s ss ih =>
    obtain ⟨a, ha, rfl⟩ := Option.map_eq_some_iff.mp hp
    rw [List.cons_append, List.cons_append, List.cons_append, fill_place, ih ha]
    simp
  | case3 => cases hp
  | case4 c cs ss _ _ hc ih =>
    obtain ⟨a, ha, rfl⟩ := Option.map_eq_some_iff.mp hp
    rw [List.cons_append, fill_char hc, ih ha]
    rfl
  | case5 =>
    cases hp
    exact hq
  | case6 => cases hp

theorem fill_literal (s : String) : fill (literal s).toList [] = some s.toList := by
  rw [literal, String.toList_ofList]
  induction s.toList with
  | nil => rfl
  | cons c cs ih =>
    rw [List.flatMap_cons]
    split
    · rename_i hc
      rw [List.cons_append, List.singleton_append, fill_sign, ih, hc]
      rfl
    · rename_i hc
      rw [List.singleton_append, fill_char hc, ih]
      rfl

/-- The pattern of one operand. -/
def cell : Tree → List Char
  | .text s => (literal s).toList
  | _ => ['%', 's']

theorem cell_place {t : Tree} (h : t.isText = false) : cell t = ['%', 's'] := by
  cases t <;> first | rfl | cases h

theorem exists_text {t : Tree} (h : t.isText = true) : ∃ s, t = .text s := by
  cases t <;> first | exact ⟨_, rfl⟩ | cases h

/-- A pattern of cells, filled in with the operands that are no text, is the wording of them all. -/
theorem fill_cells (hw : Wording w) (us : List Tree) :
    fill (us.flatMap cell) ((us.filter (!·.isText)).map w) =
      some (us.flatMap fun u => (w u).toList) := by
  induction us with
  | nil => rfl
  | cons u us ih =>
    rw [List.flatMap_cons, List.flatMap_cons]
    cases hu : u.isText with
    | true =>
      obtain ⟨s, rfl⟩ := exists_text hu
      rw [List.filter_cons_of_neg (by simp [hu]), hw.text]
      exact fill_append (fill_literal s) ih
    | false =>
      have hplace : fill (cell u) [w u] = some (w u).toList := by
        rw [cell_place hu, fill_place]
        simp [fill]
      rw [List.filter_cons_of_pos (by simp [hu]), List.map_cons]
      exact fill_append hplace ih

/-- The pattern of some operands, and the parts for its places. -/
def pieces (us : List Tree) : String × List Part :=
  (String.ofList (us.flatMap cell), (us.filter (!·.isText)).map part)

theorem extend_pieces (us : List Tree) (t : Tree) :
    extend (pieces us) (part t) = pieces (us ++ [t]) := by
  rw [extend, part_tree]
  cases t <;> simp [pieces, cell, isText, String.ofList_append]

/-- A pattern is made of the cells of what is joined. -/
theorem format_eq_pieces (left right : Tree) :
    format (part left) (part right) = pieces (left.operands ++ [right]) := by
  fun_induction operands left generalizing right with
  | case1 line left last ih =>
    have hformat : format (part (.node .binaryOp line [.text ".", left, last])) (part right) =
      extend (format (part left) (part last)) (part right) := rfl
    rw [hformat, ih, extend_pieces]
  | case2 t hjoin =>
    rw [← extend_pieces]
    cases ht : t.isText with
    | true =>
      obtain ⟨s, rfl⟩ := exists_text ht
      have hformat : format (part (.text s)) (part right) =
        extend (literal s, []) (part right) := rfl
      rw [hformat]
      simp [pieces, cell, isText]
    | false =>
      have hpieces : pieces [t] = ("%s", [part t]) := by simp [pieces, cell_place ht, ht]
      rw [format_other (fun s hs => by simp [hs, isText] at ht) hjoin, hpieces]

theorem formatTrees_eq (left right : Tree) :
    formatTrees left right = (String.ofList ((left.operands ++ [right]).flatMap cell),
      (left.operands ++ [right]).filter (!·.isText)) := by
  rw [formatTrees, format_eq_pieces]
  simp [pieces, Function.comp_def, part_tree]

theorem fill_formatTrees (hw : Wording w) (left right : Tree) :
    fill (formatTrees left right).1.toList ((formatTrees left right).2.map w) =
      some (w left ++ w right).toList := by
  rw [formatTrees_eq, String.toList_ofList, fill_cells hw, List.flatMap_append, hw.operands]
  simp

/-- Without texts, only percent signs are filled in. -/
theorem plainText_of_fill (h : fill p [] = some a) : plainText p = a := by
  fun_induction plainText p generalizing a with
  | case1 cs ih =>
    rw [fill_sign] at h
    obtain ⟨b, hb, rfl⟩ := Option.map_eq_some_iff.mp h
    rw [ih hb]
  | case2 c cs hsign ih =>
    by_cases hc : c = '%'
    · subst hc
      rw [fill] at h
      · cases h
      · exact fun cs' => hsign cs' rfl
      · simp
    · rw [fill_char hc] at h
      obtain ⟨b, hb, rfl⟩ := Option.map_eq_some_iff.mp h
      rw [ih hb]
  | case3 =>
    cases h
    rfl

/-- Whatever the texts of its places are, a pattern filled in with them is the text of the left side
and then that of the right side. A join without places becomes that text, and any other join the
pattern with the scripts of its places. -/
theorem formatTrees_filled (hw : Wording w) {left right : Tree} {pattern : String}
    {places : List Tree} (h : formatTrees left right = (pattern, places)) (line : Option Int) :
    fill pattern.toList (places.map w) = some (w left ++ w right).toList ∧
      convert (.node .binaryOp line [.text ".", left, right]) =
        if places = [] then .ok (.str line (.text (w left ++ w right)))
        else do
          let values ← places.mapM convert
          return .binOp line (.str line (.text pattern)) .mod (.tuple line values .load) := by
  have hfilled := fill_formatTrees hw left right
  have hconvert : convert (.node .binaryOp line [.text ".", left, right]) =
    binary line (.text ".") (part left) (part right) := rfl
  rw [h] at hfilled
  refine ⟨hfilled, ?_⟩
  rw [formatTrees_eq] at h
  cases h
  rw [hconvert, binary, if_pos (by simp [Tree.same])]
  simp only [format_eq_pieces, pieces, List.isEmpty_iff, List.map_eq_nil_iff, List.mapM_map]
  split
  · rename_i hplaces
    rw [hplaces] at hfilled
    rw [plainText_of_fill hfilled, String.ofList_toList]
    rfl
  · rfl

/-- A percent sign before a place and a letter behind it make no other directive. -/
theorem formatTrees_filled_signs :
    formatTrees (.node .binaryOp none [.text ".", .text "100%", .node .var none [.text "$x"]])
        (.text "s%") = ("100%%%ss%%", [.node .var none [.text "$x"]]) ∧
      fill "100%%%ss%%".toList ["Variable('$x')"] = some "100%Variable('$x')s%".toList := by
  have h : formatTrees
      (.node .binaryOp none [.text ".", .text "100%", .node .var none [.text "$x"]]) (.text "s%") =
        ("100%%%ss%%", [.node .var none [.text "$x"]]) := by
    rw [formatTrees_eq]
    rfl
  exact ⟨h, (formatTrees_filled Tree.wording_lawful h none).1⟩

end Conversion
end Docblock
