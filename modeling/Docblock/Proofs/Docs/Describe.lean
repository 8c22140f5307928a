import Docblock.Docs.Entry
import Docblock.Proofs.Docs.Signature
import Docblock.Proofs.Result

/-! The entries of a declaration after a node with a remark, one rule for each kind of it. -/
namespace Docblock.Docs

open Docblock.Tree

variable {o : Options} {level : Nat} {last t : Tree} {ts : List Tree} {line : Option Int}
  {k : Kind} {r : Remark} {s : String}

/-- Whether a tree is a text of one word. -/
def isWord (word : String) : Tree → Bool
  | .text s => s == word
  | _ => false

/-- A modifier that keeps a member to its class. -/
def restricts (m : Tree) : Bool := isWord "protected" m || isWord "private" m

theorem includes_list (word : String) (ms : List Tree) :
    (Tree.list ms).includes word = .ok (ms.any (isWord word)) := rfl

theorem any_restricts (ms : List Tree) :
    ms.any restricts = (ms.any (isWord "protected") || ms.any (isWord "private")) := by
  induction ms with
  | nil => rfl
  | cons m ms ih =>
    simp only [List.any_cons, restricts, ih, Bool.or_assoc, Bool.or_left_comm]

theorem isHidden_eq (ms : List Tree) : isHidden (.list ms) = .ok (ms.any restricts) := by
  rw [isHidden, includes_list, includes_list, any_restricts]
  cases ms.any (isWord "protected") <;> rfl

theorem remark_shaped (h : last.shaped = true) : ∃ r, remark last = .ok r := by
  unfold remark
  split
  · split
    · exact ⟨_, rfl⟩
    · split <;> exact ⟨_, rfl⟩
  · exact ⟨_, rfl⟩
  · rename_i hfs _
    obtain ⟨text, rfl⟩ := fields_of_shape (shaped_node.mp h).1
    exact absurd rfl (hfs text)
  · exact ⟨_, rfl⟩

/-- The name of a variable of a class. -/
def attributeName (v : Tree) : String := ((v.field? "name").getD .null).display

theorem describe_function {name ps body ref : Tree} (hs : call name ps = .ok (.text s))
    (hr : remark last = .ok r) :
    describe o level last (.node .function line [name, ps, body, ref]) =
      .ok (entry o false level .function s r) := by
  rw [describe, signature, hs, hr]
  rfl

theorem describe_method {ms : List Tree} {name ps body ref : Tree}
    (hs : call name ps = .ok (.text s)) (hr : remark last = .ok r) :
    describe o level last (.node .method line [name, .list ms, ps, body, ref]) =
      .ok (if ms.any restricts then [] else entry o false level .method s r) := by
  rw [describe, isHidden_eq, signature, hs, hr]
  simp only [bind, Except.bind]
  split <;> rfl

theorem describe_attributes {ms vs : List Tree} (hr : remark last = .ok r)
    (hv : ∀ v ∈ vs, ∃ line name value, v = .node .classVariable line [.text name, value]) :
    describe o level last (.node .classVariables line [.list ms, .list vs]) =
      .ok (if ms.any restricts then []
        else vs.flatMap fun v => entry o false level .attribute (attributeName v) r) := by
  have hall : attributes o level last (.list vs) =
      .ok (vs.flatMap fun v => entry o false level .attribute (attributeName v) r) := by
    rw [attributes, Tree.items]
    simp only [bind, Except.bind]
    rw [mapM_eq_map (g := fun v => entry o false level .attribute (attributeName v) r)]
    · rw [List.flatMap_def]
      rfl
    · intro v hm
      obtain ⟨line, name, value, rfl⟩ := hv v hm
      rw [hr]
      rfl
  rw [describe, isHidden_eq, hall]
  simp only [bind, Except.bind]
  split <;> rfl

/-- The kind of entry, the name and the body of a class or an interface. -/
def container? : Tree → Option (EntryKind × Tree × Tree)
  | .node .classDecl _ [name, _, _, _, nodes] => some (.classType, name, nodes)
  | .node .interfaceDecl _ [name, _, nodes] => some (.interfaceType, name, nodes)
  | _ => none

theorem describe_container {kind : EntryKind} {name : Tree} {ms : List Entry}
    (hc : container? t = some (kind, name, .list ts)) (hr : remark last = .ok r)
    (hm : describeAll o (level + 1) .null ts = .ok ms) :
    describe o level last t = .ok (if r = .isPrivate then []
      else entry o false level kind name.display r ++ if o.members then ms else []) := by
  unfold container? at hc
  split at hc
  all_goals cases hc
  all_goals
    rw [describe, hr, describeNodes, hm]
    cases r <;> cases o.members <;> rfl

/-- The kinds of node that may have entries. -/
def entryKinds : List Kind :=
  [.function, .classDecl, .interfaceDecl, .method, .classVariables]

theorem describe_other (h : t.isOf entryKinds = false) :
    describe o level last t = .ok [] := by
  unfold describe
  split
  all_goals first | rfl | cases h

theorem container?_of_other (h : t.isOf entryKinds = false) : container? t = none := by
  unfold container?
  split
  all_goals first | rfl | cases h

theorem container?_of_member (h : t.isOf memberKinds = true) : container? t = none := by
  unfold container?
  split
  all_goals first | rfl | cases h

/-- The forms of a shaped tree, with the parts that its entries depend on. -/
inductive Form : Tree → Prop
  | function {line : Option Int} {name s : String} {ps : List Tree} {body ref : Tree}
      (hp : ∀ p ∈ ps, p.classless = true) (hs : call (.text name) (.list ps) = .ok (.text s)) :
      Form (.node .function line [.text name, .list ps, body, ref])
  | method {line : Option Int} {name s : String} {ms ps : List Tree} {body ref : Tree}
      (hm : ∀ m ∈ ms, m.isText = true) (hp : ∀ p ∈ ps, p.classless = true)
      (hs : call (.text name) (.list ps) = .ok (.text s)) :
      Form (.node .method line [.text name, .list ms, .list ps, body, ref])
  | attributes {line : Option Int} {ms vs : List Tree} (hm : ∀ m ∈ ms, m.isText = true)
      (hv : ∀ v ∈ vs, ∃ line name value, v = .node .classVariable line [.text name, value]) :
      Form (.node .classVariables line [.list ms, .list vs])
  | container {t : Tree} {kind : EntryKind} {name : String} {ns : List Tree}
      (hc : container? t = some (kind, .text name, .list ns))
      (hs : ∀ n ∈ ns, n.shaped = true) (hm : ∀ n ∈ ns, n.isOf memberKinds = true) : Form t
  | other {t : Tree} (h : t.isOf entryKinds = false) : Form t

theorem classless_parameter (h : t.shaped = true) (ht : t.isOf [.formalParameter] = true) :
    t.classless = true := by
  obtain ⟨line, fs, rfl⟩ := isOf_singleton ht
  obtain ⟨name, value, ref, type, rfl, hv, ht⟩ := fields_of_shape (shaped_node.mp h).1
  simp [classless_node, classless_text, classless_bool, hv, ht]

theorem form_of_shaped (h : t.shaped = true) : Form t := by
  cases t with
  | null | bool | int | float | text | list => exact .other rfl
  | node k line fs =>
    obtain ⟨hs, hf⟩ := shaped_node.mp h
    have hsign := signature_shaped _ h
    have hfields := fields_of_shape hs
    cases k with
    | function =>
      obtain ⟨name, ps, body, ref, rfl, hp⟩ := hfields
      obtain ⟨s, hs⟩ := hsign
      have hps := shaped_list.mp (hf (.list ps) (by simp))
      exact .function (fun p hm => classless_parameter (hps p hm) (hp p hm)) hs
    | method =>
      obtain ⟨name, ms, ps, body, ref, rfl, hm, hp⟩ := hfields
      obtain ⟨s, hs⟩ := hsign
      have hps := shaped_list.mp (hf (.list ps) (by simp))
      exact .method hm (fun p hm => classless_parameter (hps p hm) (hp p hm)) hs
    | classVariables =>
      obtain ⟨ms, vs, rfl, hm, hv⟩ := hfields
      refine .attributes hm fun v hmem => ?_
      obtain ⟨line, fs, rfl⟩ := isOf_singleton (hv v hmem)
      have hvs := shaped_list.mp (hf (.list vs) (by simp)) _ hmem
      obtain ⟨name, value, rfl⟩ := fields_of_shape (shaped_node.mp hvs).1
      exact ⟨line, name, value, rfl⟩
    | classDecl =>
      obtain ⟨name, type, ext, imp, ns, rfl, hm⟩ := hfields
      exact .container rfl (shaped_list.mp (hf (.list ns) (by simp))) hm
    | interfaceDecl =>
      obtain ⟨name, ext, ns, rfl, hm⟩ := hfields
      exact .container rfl (shaped_list.mp (hf (.list ns) (by simp))) hm
    | _ => exact .other rfl

end Docblock.Docs
