import Docblock.Tree.Basic

/-! The shape of the nodes that documentation looks into. -/
namespace Docblock.Tree

variable {p : Kind → Option Int → List Tree → Bool} {t : Tree} {ts : List Tree}

mutual
/-- Whether a check holds of the kind, the line and the fields of every node in a tree. -/
def everyNode (p : Kind → Option Int → List Tree → Bool) : Tree → Bool
  | .node k line fs => p k line fs && everyNodeIn p fs
  | .list ts => everyNodeIn p ts
  | _ => true

/-- Whether a check holds of every node in some trees. -/
def everyNodeIn (p : Kind → Option Int → List Tree → Bool) : List Tree → Bool
  | [] => true
  | t :: ts => everyNode p t && everyNodeIn p ts
end

theorem everyNodeIn_iff : everyNodeIn p ts = true ↔ ∀ t ∈ ts, everyNode p t = true := by
  induction ts with
  | nil => simp [everyNodeIn]
  | cons t ts ih => simp [everyNodeIn, ih]

def isOf (ks : List Kind) : Tree → Bool
  | .node k _ _ => ks.contains k
  | _ => false

def isText : Tree → Bool
  | .text _ => true
  | _ => false

/-- No class and no interface is declared anywhere in the tree. -/
def classless (t : Tree) : Bool := t.everyNode fun k _ _ => k != .classDecl && k != .interfaceDecl

/-- The kinds of node in the body of a class or an interface. -/
def memberKinds : List Kind := [.method, .classVariables, .classConstants, .comment]

/-- The fields of a node, for the kinds that documentation looks into. -/
@[simp]
def shape (k : Kind) (_ : Option Int) (fs : List Tree) : Bool :=
  match k with
  | .function =>
    match fs with
    | [.text _, .list ps, .list _, .bool _] => ps.all (isOf [.formalParameter])
    | _ => false
  | .method =>
    match fs with
    | [.text _, .list ms, .list ps, .list _, .bool _] =>
      ms.all isText && ps.all (isOf [.formalParameter])
    | _ => false
  | .formalParameter =>
    match fs with
    | [.text _, value, .bool _, type] => value.classless && type.classless
    | _ => false
  | .classDecl =>
    match fs with
    | [.text _, _, _, .list _, .list ns] => ns.all (isOf memberKinds)
    | _ => false
  | .interfaceDecl =>
    match fs with
    | [.text _, _, .list ns] => ns.all (isOf memberKinds)
    | _ => false
  | .classVariables =>
    match fs with
    | [.list ms, .list vs] => ms.all isText && vs.all (isOf [.classVariable])
    | _ => false
  | .classVariable =>
    match fs with
    | [.text _, _] => true
    | _ => false
  | .array =>
    match fs with
    | [.list es] => es.all (isOf [.arrayElement])
    | _ => false
  | .constant | .comment =>
    match fs with
    | [.text _] => true
    | _ => false
  | _ => true

/-- Every node in the tree has its shape. -/
def shaped (t : Tree) : Bool := t.everyNode shape

theorem shaped_node {k : Kind} {line : Option Int} {fs : List Tree} :
    (Tree.node k line fs).shaped = true ↔
      shape k line fs = true ∧ ∀ f ∈ fs, f.shaped = true := by
  simp only [shaped, everyNode, Bool.and_eq_true, everyNodeIn_iff]

theorem shaped_list : (Tree.list ts).shaped = true ↔ ∀ t ∈ ts, t.shaped = true := by
  simp only [shaped, everyNode, everyNodeIn_iff]

theorem classless_node {k : Kind} {line : Option Int} {fs : List Tree} :
    (Tree.node k line fs).classless = true ↔
      (k ≠ .classDecl ∧ k ≠ .interfaceDecl) ∧ ∀ f ∈ fs, f.classless = true := by
  simp only [classless, everyNode, Bool.and_eq_true, bne_iff_ne, everyNodeIn_iff]

theorem classless_list : (Tree.list ts).classless = true ↔ ∀ t ∈ ts, t.classless = true := by
  simp only [classless, everyNode, everyNodeIn_iff]

theorem classless_null : Tree.null.classless = true := rfl

theorem classless_bool (b : Bool) : (Tree.bool b).classless = true := rfl

theorem classless_int (n : Int) : (Tree.int n).classless = true := rfl

theorem classless_float (x : Double) : (Tree.float x).classless = true := rfl

theorem classless_text (s : String) : (Tree.text s).classless = true := rfl

theorem shaped_null : Tree.null.shaped = true := rfl

theorem isOf_node {k : Kind} {line : Option Int} {fs : List Tree} {ks : List Kind} :
    (Tree.node k line fs).isOf ks = ks.contains k := rfl

theorem isOf_of_disjoint {ks ls : List Kind} (h : t.isOf ks = true) (hd : ∀ k ∈ ks, k ∉ ls) :
    t.isOf ls = false := by
  cases t with
  | node k line fs =>
    rw [isOf_node] at h ⊢
    simpa using hd k (by simpa using h)
  | null | bool | int | float | text | list => rfl

theorem isOf_singleton {k : Kind} (h : t.isOf [k] = true) : ∃ line fs, t = .node k line fs := by
  cases t with
  | node k' line fs =>
    simp only [isOf, List.contains_cons, List.contains_nil, Bool.or_false, beq_iff_eq] at h
    exact ⟨line, fs, h ▸ rfl⟩
  | null | bool | int | float | text | list => cases h

/-- The fields of a node with its shape. -/
def Fields (fs : List Tree) : Kind → Prop
  | .function => ∃ name ps body isRef,
    fs = [.text name, .list ps, .list body, .bool isRef] ∧
      ∀ p ∈ ps, p.isOf [.formalParameter] = true
  | .method => ∃ name ms ps body isRef,
    fs = [.text name, .list ms, .list ps, .list body, .bool isRef] ∧
      (∀ m ∈ ms, m.isText = true) ∧ ∀ p ∈ ps, p.isOf [.formalParameter] = true
  | .formalParameter => ∃ name value isRef type, fs = [.text name, value, .bool isRef, type] ∧
    value.classless = true ∧ type.classless = true
  | .classDecl => ∃ name type ext imp ns,
    fs = [.text name, type, ext, .list imp, .list ns] ∧ ∀ n ∈ ns, n.isOf memberKinds = true
  | .interfaceDecl => ∃ name ext ns,
    fs = [.text name, ext, .list ns] ∧ ∀ n ∈ ns, n.isOf memberKinds = true
  | .classVariables => ∃ ms vs, fs = [.list ms, .list vs] ∧
    (∀ m ∈ ms, m.isText = true) ∧ ∀ v ∈ vs, v.isOf [.classVariable] = true
  | .classVariable => ∃ name value, fs = [.text name, value]
  | .array => ∃ es, fs = [.list es] ∧ ∀ e ∈ es, e.isOf [.arrayElement] = true
  | .constant | .comment => ∃ text, fs = [.text text]
  | _ => True

theorem fields_of_shape {k : Kind} {line : Option Int} {fs : List Tree}
    (h : shape k line fs = true) : Fields fs k := by
  cases k with
  | function =>
    simp only [shape] at h
    split at h
    · exact ⟨_, _, _, _, rfl, List.all_eq_true.mp h⟩
    · cases h
  | method =>
    simp only [shape] at h
    split at h
    · rw [Bool.and_eq_true] at h
      exact ⟨_, _, _, _, _, rfl, List.all_eq_true.mp h.1, List.all_eq_true.mp h.2⟩
    · cases h
  | formalParameter =>
    simp only [shape] at h
    split at h
    · rw [Bool.and_eq_true] at h
      exact ⟨_, _, _, _, rfl, h⟩
    · cases h
  | classDecl =>
    simp only [shape] at h
    split at h
    · exact ⟨_, _, _, _, _, rfl, List.all_eq_true.mp h⟩
    · cases h
  | interfaceDecl =>
    simp only [shape] at h
    split at h
    · exact ⟨_, _, _, rfl, List.all_eq_true.mp h⟩
    · cases h
  | classVariables =>
    simp only [shape] at h
    split at h
    · rw [Bool.and_eq_true] at h
      exact ⟨_, _, rfl, List.all_eq_true.mp h.1, List.all_eq_true.mp h.2⟩
    · cases h
  | classVariable =>
    simp only [shape] at h
    split at h
    · exact ⟨_, _, rfl⟩
    · cases h
  | array =>
    simp only [shape] at h
    split at h
    · exact ⟨_, rfl, List.all_eq_true.mp h⟩
    · cases h
  | constant | comment =>
    simp only [shape] at h
    split at h
    · exact ⟨_, rfl⟩
    · cases h
  | _ => trivial

theorem isOf_memberKinds (h : t.isOf [.comment] = true) : t.isOf memberKinds = true := by
  obtain ⟨line, fs, rfl⟩ := isOf_singleton h
  rfl

end Docblock.Tree
