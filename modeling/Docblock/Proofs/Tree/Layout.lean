import Docblock.Proofs.Tree.Visit

/-! Where lists, names and statements stand in the nodes of a tree. -/
namespace Docblock.Tree

variable {t : Tree} {ts : List Tree} {k : Kind} {line : Option Int}

/-- No list in the list, if this is one. -/
def flat : Tree → Bool
  | .list items => items.all (!·.isList)
  | _ => true

/-- Neither a node nor a list. -/
def isLeaf : Tree → Bool
  | .node _ _ _ | .list _ => false
  | _ => true

/-- How the fields of a node are laid out. Only the targets of a list assignment may have lists
among them. A declaration has its name first, which a namespace may lack, and a constant that names
a place has a name and a plain value. -/
@[simp]
def layout (k : Kind) (_ : Option Int) (fields : List Tree) : Bool :=
  match k with
  | .listAssignment =>
    match fields with
    | [.list _, value] => !value.isList
    | _ => false
  | .magicConstant =>
    match fields with
    | [.text _, value] => value.isLeaf
    | _ => false
  | .namespaceDecl =>
    match fields with
    | [.text _, body] | [.null, body] => body.flat
    | _ => false
  | .classDecl | .function | .method =>
    match fields with
    | .text _ :: rest => rest.all flat
    | _ => false
  | _ => fields.all flat

/-- Every node in the tree is laid out in its way. -/
def laid (t : Tree) : Bool := t.everyNode layout

theorem laid_node :
    (Tree.node k line ts).laid = true ↔ layout k line ts = true ∧ ∀ t ∈ ts, t.laid = true := by
  simp only [laid, everyNode, Bool.and_eq_true, everyNodeIn_iff]

theorem laid_list : (Tree.list ts).laid = true ↔ ∀ t ∈ ts, t.laid = true := by
  simp only [laid, everyNode, everyNodeIn_iff]

theorem flat_of_not_list (h : t.isList = false) : t.flat = true := by
  cases t <;> first | rfl | cases h

theorem flat_of_isLeaf (h : t.isLeaf = true) : t.flat = true := by
  cases t <;> first | rfl | cases h

theorem flat_list : (Tree.list ts).flat = true ↔ ∀ t ∈ ts, t.isList = false := by
  simp [flat]

theorem flat_null : Tree.null.flat = true := rfl

theorem flat_bool (b : Bool) : (Tree.bool b).flat = true := rfl

theorem flat_text (s : String) : (Tree.text s).flat = true := rfl

theorem flat_node : (Tree.node k line ts).flat = true := rfl

theorem isList_node : (Tree.node k line ts).isList = false := rfl

theorem isList_float (x : Double) : (Tree.float x).isList = false := rfl

theorem isList_text (s : String) : (Tree.text s).isList = false := rfl

/-- The declarations that a constant may name, but for namespaces. -/
def scopeKinds : List Kind := [.classDecl, .function, .method]

theorem mem_scopeKinds : k ∈ scopeKinds ↔ k = .classDecl ∨ k = .function ∨ k = .method := by
  simp [scopeKinds]

/-- The first field of such a declaration is its name. -/
theorem layout_scope (h : layout k line ts = true) (hk : k ∈ scopeKinds) :
    ∃ n rest, ts = .text n :: rest := by
  obtain rfl | rfl | rfl := mem_scopeKinds.mp hk
  all_goals
    simp only [layout] at h
    split at h
    · exact ⟨_, _, rfl⟩
    · cases h

theorem layout_listAssignment (h : layout .listAssignment line ts = true) :
    ∃ targets value, ts = [.list targets, value] ∧ value.isList = false := by
  simp only [layout] at h
  split at h
  · exact ⟨_, _, rfl, by simpa using h⟩
  · cases h

/-- Only the targets of a list assignment may have lists among them. -/
theorem layout_flat (h : layout k line ts = true) (hk : k ≠ .listAssignment) :
    ∀ t ∈ ts, t.flat = true := by
  rw [← List.all_eq_true]
  cases k with
  | listAssignment => exact absurd rfl hk
  | magicConstant =>
    simp only [layout] at h
    split at h
    · simp [flat_text, flat_of_isLeaf h]
    · cases h
  | namespaceDecl =>
    simp only [layout] at h
    split at h
    · simp [flat_text, h]
    · simp [flat_null, h]
    · cases h
  | classDecl | function | method =>
    simp only [layout] at h
    split at h
    · simp only [List.all_cons, flat_text, h, Bool.and_self]
    · cases h
  | _ => exact h

/-- The kinds of statement that have a body and are turned into statements that have one. -/
def suiteKinds : List Kind := [
  .block, .ifElse, .whileLoop, .doWhile, .forLoop, .foreach, .tryBlock, .function, .method,
  .classDecl]

mutual
/-- No statement with a body stands in the tree. Closures are not looked into. -/
def plain : Tree → Bool
  | .node .closure _ _ => true
  | .node k _ fs => !suiteKinds.contains k && plainAll fs
  | .list ts => plainAll ts
  | _ => true

def plainAll : List Tree → Bool
  | [] => true
  | t :: ts => t.plain && plainAll ts
end

theorem plainAll_iff : plainAll ts = true ↔ ∀ t ∈ ts, t.plain = true := by
  induction ts with
  | nil => simp [plainAll]
  | cons t ts ih => simp [plainAll, ih]

theorem plain_node (hk : k ≠ .closure) :
    (Tree.node k line ts).plain = true ↔ k ∉ suiteKinds ∧ ∀ t ∈ ts, t.plain = true := by
  rw [plain]
  · simp [plainAll_iff]
  · exact hk

theorem plain_closure : (Tree.node .closure line ts).plain = true := by simp [plain]

theorem plain_list : (Tree.list ts).plain = true ↔ ∀ t ∈ ts, t.plain = true := plainAll_iff

theorem plain_int (n : Int) : (Tree.int n).plain = true := rfl

theorem plain_float (x : Double) : (Tree.float x).plain = true := rfl

theorem plain_text (s : String) : (Tree.text s).plain = true := rfl

end Docblock.Tree
