import Docblock.Proofs.Docs.Session
import Docblock.Proofs.Docs.Total
import Docblock.Proofs.Tree.Comments

/-! Private code does not show in the documentation of a module. -/
namespace Docblock.Docs

open Docblock.Tree Docblock.Filter

variable {o : Options} {level : Nat} {last last' t : Tree} {ts : List Tree} {line : Option Int}
  {k : Kind} {r : Remark}

/-- A documenting comment that marks what follows it as private. -/
def marks : Tree → Bool
  | .node .comment _ [.text s] => isPrivate s.toList
  | _ => false

/-- Whether a declaration is private code: the comment before it says so, or it is a member and
one of its modifiers does. -/
def concealed (last : Tree) : Tree → Bool
  | .node .function _ _ | .node .classDecl _ _ | .node .interfaceDecl _ _ => marks last
  | .node .method _ [_, .list ms, _, _, _] => marks last || ms.any restricts
  | .node .classVariables _ [.list ms, _] => marks last || ms.any restricts
  | _ => false

mutual
/-- A tree without the private code in the bodies of its classes and interfaces, wherever they
stand in it. -/
def veil : Tree → Tree
  | .node .classDecl line [name, type, ext, imp, .list ns] =>
    .node .classDecl line [name, type, ext, imp, .list (veilNodes .null ns)]
  | .node .interfaceDecl line [name, ext, .list ns] =>
    .node .interfaceDecl line [name, ext, .list (veilNodes .null ns)]
  | .node k line fs => .node k line (veilIn fs)
  | .list ts => .list (veilIn ts)
  | t => t

def veilIn : List Tree → List Tree
  | [] => []
  | t :: ts => veil t :: veilIn ts

/-- Nodes with null for those that are private code; the first of them follows another node. -/
def veilNodes (last : Tree) : List Tree → List Tree
  | [] => []
  | t :: ts => (if concealed last t then .null else veil t) :: veilNodes t ts
end

theorem veilIn_eq_map (ts : List Tree) : veilIn ts = ts.map veil := by
  induction ts with
  | nil => rfl
  | cons t ts ih => rw [veilIn, ih, List.map_cons]

mutual
theorem veil_classless (t : Tree) (h : t.classless = true) : veil t = t := by
  match t with
  | .node k line fs =>
    obtain ⟨⟨hc, hi⟩, hf⟩ := classless_node.mp h
    rw [veil]
    · rw [veilIn_classless fs hf]
    · simp [hc]
    · simp [hi]
  | .list ts => rw [veil, veilIn_classless ts (classless_list.mp h)]
  | .null | .bool _ | .int _ | .float _ | .text _ => rfl

theorem veilIn_classless (ts : List Tree) (h : ∀ t ∈ ts, t.classless = true) :
    veilIn ts = ts := by
  match ts with
  | [] => rfl
  | t :: ts =>
    obtain ⟨ht, hts⟩ := List.forall_mem_cons.mp h
    rw [veilIn, veil_classless t ht, veilIn_classless ts hts]
end

theorem veilIn_texts (h : ∀ t ∈ ts, t.isText = true) : veilIn ts = ts := by
  refine veilIn_classless ts fun t ht => ?_
  have htext := h t ht
  cases t with
  | text s => exact classless_text s
  | null | bool | int | float | list | node => cases htext

theorem isOf_veil (ks : List Kind) (t : Tree) : (veil t).isOf ks = t.isOf ks := by
  unfold veil
  split <;> rfl

theorem container?_veil {kind : EntryKind} {name : Tree}
    (h : container? t = some (kind, name, .list ts)) :
    container? (veil t) = some (kind, name, .list (veilNodes .null ts)) := by
  unfold container? at h
  split at h
  all_goals cases h
  all_goals rfl

theorem remark_of_isOf (h : t.isOf [.comment] = false) : remark t = .ok .nothing := by
  unfold remark
  split
  all_goals first | rfl | cases h

theorem remark_marks (h : marks last = true) : remark last = .ok .isPrivate := by
  unfold marks at h
  split at h
  · rw [remark, if_pos h]
  · cases h

/-- What a node says about the one after it stays when private code is left out. -/
theorem remark_veil (h : t.shaped = true) : remark (veil t) = remark t := by
  cases hc : t.isOf [.comment] with
  | false => rw [remark_of_isOf hc, remark_of_isOf ((isOf_veil _ t).trans hc)]
  | true =>
    obtain ⟨line, fs, rfl⟩ := isOf_singleton hc
    obtain ⟨text, rfl⟩ := fields_of_shape (shaped_node.mp h).1
    rfl

theorem entry_isPrivate (kind : EntryKind) (name : String) :
    entry o false level kind name .isPrivate = [] := rfl

theorem concealed_container {kind : EntryKind} {name nodes : Tree}
    (h : container? t = some (kind, name, nodes)) : concealed last t = marks last := by
  unfold container? at h
  split at h
  all_goals first | rfl | cases h

theorem remark_concealed (h : concealed last t = true) : remark t = .ok .nothing := by
  refine remark_of_isOf ?_
  unfold concealed at h
  split at h
  all_goals first | rfl | cases h

/-- Private code has no entries. -/
theorem describe_concealed (ht : t.shaped = true) (hl : last.shaped = true)
    (h : concealed last t = true) : describe o level last t = .ok [] := by
  obtain ⟨r, hr⟩ := remark_shaped hl
  have hprivate : marks last = true → r = .isPrivate := fun hm =>
    Except.ok.inj (hr.symm.trans (remark_marks hm))
  cases form_of_shaped ht with
  | function hp hs => rw [describe_function hs hr, hprivate h, entry_isPrivate]
  | method hm hp hs =>
    rw [describe_method hs hr]
    split
    · rfl
    · rename_i hms
      simp only [concealed, Bool.eq_false_iff.mpr hms, Bool.or_false] at h
      rw [hprivate h, entry_isPrivate]
  | attributes hm hv =>
    rw [describe_attributes hr hv]
    split
    · rfl
    · rename_i hms
      simp only [concealed, Bool.eq_false_iff.mpr hms, Bool.or_false] at h
      simp [hprivate h, entry_isPrivate]
  | container hc hs hm =>
    rw [concealed_container hc] at h
    obtain ⟨ms, hms⟩ := describeAll_shaped o (level + 1) .null _ rfl hs
    rw [describe_container hc hr hms, if_pos (hprivate h)]
  | other ho => exact describe_other ho

/-- A declaration other than a class or interface has the same entries when private code is left
out of it: there can be none in the parts that show. -/
theorem describe_veil_member (ht : t.shaped = true) (hc : container? t = none)
    (hl : last.shaped = true) (hr : remark last' = remark last) :
    describe o level last' (veil t) = describe o level last t := by
  obtain ⟨r, hlast⟩ := remark_shaped hl
  have hlast' := hr.trans hlast
  cases form_of_shaped ht with
  | function hp hs =>
    rw [describe_function hs hlast, veil, veilIn, veilIn, veil, veil, veilIn_classless _ hp]
    · exact describe_function hs hlast'
    all_goals simp
  | method hm hp hs =>
    rw [describe_method hs hlast]
    simp only [veil, veilIn, veilIn_classless _ hp, veilIn_texts hm]
    exact describe_method hs hlast'
  | @attributes line ms vs hm hv =>
    have hname : ∀ v ∈ vs, attributeName (veil v) = attributeName v := by
      intro v hmem
      obtain ⟨line, name, value, rfl⟩ := hv v hmem
      rfl
    have hv' : ∀ v ∈ vs.map veil, ∃ line name value,
        v = .node .classVariable line [.text name, value] := by
      rw [List.forall_mem_map]
      intro v hmem
      obtain ⟨line, name, value, rfl⟩ := hv v hmem
      exact ⟨line, name, veil value, rfl⟩
    rw [describe_attributes hlast hv]
    simp only [veil, veilIn, veilIn_texts hm, veilIn_eq_map]
    rw [describe_attributes hlast' hv', List.flatMap_map]
    rw [List.flatMap_congr fun v hmem => by rw [hname v hmem]]
  | container hc' => cases hc.symm.trans hc'
  | other ho =>
    rw [describe_other ho, describe_other ((isOf_veil _ t).trans ho)]

/-- Nodes have the same entries when private code is left out, if each of them by itself has. -/
theorem describeAll_veilNodes (hs : ∀ t ∈ ts, t.shaped = true) (hl : last.shaped = true)
    (hr : remark last' = remark last)
    (hstep : ∀ t ∈ ts, ∀ last last', last.shaped = true → remark last' = remark last →
      describe o level last' (veil t) = describe o level last t) :
    describeAll o level last' (veilNodes last ts) = describeAll o level last ts := by
  induction ts generalizing last last' with
  | nil => rfl
  | cons t ts ih =>
    obtain ⟨ht, hts⟩ := List.forall_mem_cons.mp hs
    obtain ⟨hstept, hsteps⟩ := List.forall_mem_cons.mp hstep
    rw [veilNodes, describeAll, describeAll]
    cases hc : concealed last t with
    | true =>
      -- what is left out is no comment, so the next node finds nothing said about it either way
      have hnothing : remark .null = remark t := (remark_concealed hc).symm
      rw [if_pos rfl, describe_concealed ht hl hc, describe_other rfl, ih hts ht hnothing hsteps]
    | false =>
      rw [if_neg Bool.false_ne_true, hstept last last' hl hr, ih hts ht (remark_veil ht) hsteps]

/-- Every declaration has the same entries when private code is left out of it. -/
theorem describe_veil (ht : t.shaped = true) (hl : last.shaped = true)
    (hr : remark last' = remark last) :
    describe o level last' (veil t) = describe o level last t := by
  cases form_of_shaped ht with
  | function | method | attributes => exact describe_veil_member ht rfl hl hr
  | other ho => exact describe_veil_member ht (container?_of_other ho) hl hr
  | @container _ kind name ns hc hs hm =>
    obtain ⟨r, hlast⟩ := remark_shaped hl
    obtain ⟨ms, hms⟩ := describeAll_shaped o (level + 1) .null ns rfl hs
    have hbody : describeAll o (level + 1) .null (veilNodes .null ns) = .ok ms := by
      rw [← hms]
      refine describeAll_veilNodes hs rfl rfl fun n hn _ _ => ?_
      exact describe_veil_member (hs n hn) (container?_of_member (hm n hn))
    rw [describe_container hc hlast hms,
      describe_container (container?_veil hc) (hr.trans hlast) hbody]

/-- Private code does not show: the documentation of a module has the same lines when all of it
is left out, whatever the options. -/
theorem parse_veil {f g : Filter} {file : Option String} {text : List Char}
    (h : f.parse file text = (.ok ts, g)) (r : Request) :
    ∃ lines, (moduleEntries r.options ts).map (documentLines r) = .ok lines ∧
      (moduleEntries r.options (veilNodes .null ts)).map (documentLines r) = .ok lines := by
  have hs := parse_shaped h
  obtain ⟨es, hes⟩ := describeAll_shaped r.options 0 .null ts rfl hs
  have hveil : describeAll r.options 0 .null (veilNodes .null ts) = .ok es := by
    rw [← hes]
    exact describeAll_veilNodes hs rfl rfl fun t ht _ _ => describe_veil (hs t ht)
  refine ⟨documentLines r es, ?_, ?_⟩
  · rw [moduleEntries, hes]
    rfl
  · rw [moduleEntries, hveil]
    rfl

/-- A comment marks the function `f` and the method `g`, a modifier the attribute. Four of the nine
nodes are left out. -/
theorem parse_veil_marked :
    ∃ ts g, (fresh []).parse none
        ("<?php /** @access private */ function f() \x7b \x7d class A \x7b private $x; " ++
          "/** @access private */ function g() \x7b \x7d /** Kept. */ function h() \x7b \x7d \x7d"
            ).toList = (.ok ts, g) ∧
      ((nodesIn ts).length = 9 ∧ (nodesIn (veilNodes .null ts)).length = 5) ∧
      ∀ r : Request, ∃ lines, (moduleEntries r.options ts).map (documentLines r) = .ok lines ∧
        (moduleEntries r.options (veilNodes .null ts)).map (documentLines r) = .ok lines := by
  obtain ⟨ts, g, h, hn⟩ := exists_parse_any (fresh []) none
    ("<?php /** @access private */ function f() \x7b \x7d class A \x7b private $x; " ++
      "/** @access private */ function g() \x7b \x7d /** Kept. */ function h() \x7b \x7d \x7d"
        ).toList
    (p := fun ts => (nodesIn ts).length = 9 ∧ (nodesIn (veilNodes .null ts)).length = 5)
    (by rw [String.toList_append, String.toList_ofList, String.toList_ofList]; decide +kernel)
  exact ⟨ts, g, h, of_decide_eq_true hn, parse_veil h⟩

end Docblock.Docs
