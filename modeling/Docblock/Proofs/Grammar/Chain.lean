import Mathlib.Data.List.Chain
import Mathlib.Data.List.Forall2
import Mathlib.Logic.Relation
import Docblock.Proofs.Grammar.Reading

/-! Chains: a variable with indices, properties and calls behind it, and the nodes that are built
for them, one around the other. -/
namespace Docblock

namespace Tree

/-- A tree directly in another one. -/
def Child (t : Tree) : Tree → Prop
  | .node _ _ fields => t ∈ fields
  | .list items => t ∈ items
  | _ => False

/-- A tree somewhere in another one. -/
def Inside : Tree → Tree → Prop := Relation.TransGen Child

theorem Child.sizeOf_lt {t u : Tree} (h : t.Child u) : sizeOf t < sizeOf u := by
  cases u with
  | node kind line fields =>
    have := List.sizeOf_lt_of_mem h
    simp only [node.sizeOf_spec]
    omega
  | list items =>
    have := List.sizeOf_lt_of_mem h
    simp only [list.sizeOf_spec]
    omega
  | null | bool | int | float | text => cases h

theorem Inside.sizeOf_lt {t u : Tree} (h : t.Inside u) : sizeOf t < sizeOf u := by
  induction h with
  | single h => exact h.sizeOf_lt
  | tail _ h ih => exact ih.trans h.sizeOf_lt

/-- No two trees are in each other. -/
theorem Inside.not_inside {t u : Tree} (h : t.Inside u) : ¬ u.Inside t :=
  fun h' => absurd h.sizeOf_lt (Nat.not_lt.mpr h'.sizeOf_lt.le)

end Tree

namespace Grammar

open Docblock.Tree

variable {file : Option String} {line : Int} {t : Tree}

/-- What is written behind a variable. -/
inductive Role where
  | index | property | call | dollar
  deriving DecidableEq

/-- What a chain does with a tree: takes what is at an index, takes a property, calls it, or takes
the variable that it is the name of. -/
inductive Operation where
  | offset (d : Dimension)
  | property (name : Tree)
  | call (line : Int) (args : List Tree)
  | dereference (line : Int)

namespace Operation

def role : Operation → Role
  | offset _ => .index
  | property _ => .property
  | call _ _ => .call
  | dereference _ => .dollar

/-- The node for an operation by itself. The line is that of the properties. -/
def on (line : Int) (t : Tree) : Operation → Tree
  | offset d => node d.line d.kind [t, d.value]
  | property name => node line .objectProperty [t, name]
  | call l args => node l .functionCall [t, .list args]
  | dereference l => node l .var [t]

theorem child_on (line : Int) (t : Tree) (op : Operation) : t.Child (op.on line t) := by
  cases op <;> exact List.mem_cons_self

end Operation

open Operation

/-- A tree with operations around it, the first one innermost. A property and a call directly
behind it are one call of a method. -/
def around (line : Int) : Tree → List Operation → Tree
  | t, .property name :: .call _ args :: ops =>
    around line (node line .methodCall [t, name, .list args]) ops
  | t, op :: ops => around line (op.on line t) ops
  | t, [] => t

/-- The operations around a tree, each with the node that is built for it. -/
def nested (line : Int) : Tree → List Operation → List (Operation × Tree)
  | t, .property name :: .call l args :: ops =>
    let m := node line .methodCall [t, name, .list args]
    (.property name, m) :: (.call l args, m) :: nested line m ops
  | t, op :: ops => (op, op.on line t) :: nested line (op.on line t) ops
  | _, [] => []

/-- The node for an operation is in the node for another one, or a property and a call have one
node. -/
def Nests (x y : Operation × Tree) : Prop :=
  x.2.Inside y.2 ∨ x.1.role = .property ∧ y.1.role = .call ∧ x.2 = y.2

/-- The operations stay in their order. -/
theorem nested_fst (line : Int) (t : Tree) (ops : List Operation) :
    (nested line t ops).map (·.1) = ops := by
  fun_induction nested line t ops with
  | case1 t name l args ops m ih => simp [ih]
  | case2 t op ops _ ih => simp [ih]
  | case3 => rfl

theorem inside_nested (line : Int) (t : Tree) (ops : List Operation) :
    ∀ x ∈ nested line t ops, t.Inside x.2 := by
  fun_induction nested line t ops with
  | case1 t name l args ops m ih =>
    have hm : t.Inside m := .single List.mem_cons_self
    simp only [List.forall_mem_cons]
    exact ⟨hm, hm, fun x hx => hm.trans (ih x hx)⟩
  | case2 t op ops _ ih =>
    have hop : t.Inside (op.on line t) := .single (child_on line t op)
    simp only [List.forall_mem_cons]
    exact ⟨hop, fun x hx => hop.trans (ih x hx)⟩
  | case3 => simp

/-- The node for an operation is in those for the operations behind it. -/
theorem nested_pairwise (line : Int) (t : Tree) (ops : List Operation) :
    (nested line t ops).Pairwise Nests := by
  fun_induction nested line t ops with
  | case1 t name l args ops m ih =>
    have hrest := inside_nested line m ops
    refine .cons ?_ (.cons (fun x hx => Or.inl (hrest x hx)) ih)
    simp only [List.forall_mem_cons]
    exact ⟨Or.inr ⟨rfl, rfl, rfl⟩, fun x hx => Or.inl (hrest x hx)⟩
  | case2 t op ops _ ih =>
    exact .cons (fun x hx => Or.inl (inside_nested line _ ops x hx)) ih
  | case3 => exact .nil

/-- The outermost of some nodes around a tree, or the tree. -/
def outermost (t : Tree) (built : List (Operation × Tree)) : Tree :=
  (built.getLast?.map (·.2)).getD t

theorem outermost_cons (t : Tree) (x : Operation × Tree) (xs : List (Operation × Tree)) :
    outermost t (x :: xs) = outermost x.2 xs := by
  rw [outermost, outermost, List.getLast?_cons]
  cases xs.getLast? <;> rfl

theorem outermost_nested (line : Int) (t : Tree) (ops : List Operation) :
    outermost t (nested line t ops) = around line t ops := by
  fun_induction nested line t ops with
  | case1 t name l args ops m ih => rw [outermost_cons, outermost_cons, ih, around]
  | case2 t op ops hno ih =>
    rw [outermost_cons, ih, around]
    exact hno
  | case3 => rfl

/-- Operations that start with a call of something. -/
def Calls (ops : List Operation) : Prop := ∃ op ∈ ops.head?, op.role = .call

theorem around_cons {op : Operation} {ops : List Operation}
    (h : op.role ≠ .property ∨ ¬ Calls ops) :
    around line t (op :: ops) = around line (op.on line t) ops := by
  rw [around]
  rintro name l args rest rfl rfl
  obtain h | h := h
  · exact h rfl
  · exact h ⟨_, rfl, rfl⟩

theorem around_append {ops : List Operation} (h : ∀ op ∈ ops, op.role ≠ .property)
    (rest : List Operation) :
    around line t (ops ++ rest) = around line (around line t ops) rest := by
  induction ops generalizing t with
  | nil => rfl
  | cons op ops ih =>
    obtain ⟨hop, hops⟩ := List.forall_mem_cons.mp h
    rw [List.cons_append, around_cons (Or.inl hop), around_cons (Or.inl hop)]
    exact ih hops

theorem around_offsets (ds : List Dimension) (rest : List Operation) :
    around line t (ds.map .offset ++ rest) = around line (indexed t ds) rest := by
  induction ds generalizing t with
  | nil => rfl
  | cons d ds ih => exact ih

/-- A call goes before the index that it is written behind. -/
def promote : Operation → List Operation → List Operation
  | .offset d, .call l args :: ops => .call l args :: .offset d :: ops
  | op, ops => op :: ops

theorem promote_eq {op : Operation} {ops : List Operation} (h : ¬ (op.role = .index ∧ Calls ops)) :
    promote op ops = op :: ops := by
  unfold promote
  split
  · exact absurd ⟨rfl, _, rfl, rfl⟩ h
  · rfl

theorem promote_cons {op : Operation} {ops rest : List Operation}
    (h : promote op ops = op :: rest) : ops = rest ∧ ¬ (op.role = .index ∧ Calls ops) := by
  by_cases hmoves : op.role = .index ∧ Calls ops
  · obtain ⟨hindex, next, hnext, hcall⟩ := hmoves
    obtain ⟨tail, rfl⟩ := List.head?_eq_some_iff.mp hnext
    cases op <;> cases hindex
    cases next <;> cases hcall
    cases (List.cons.inj h).1
  · rw [promote_eq hmoves] at h
    exact ⟨(List.cons.inj h).2, hmoves⟩

theorem mem_promote {op x : Operation} {ops : List Operation} (h : x ∈ promote op ops) :
    x = op ∨ x ∈ ops := by
  unfold promote at h
  split at h
  · simp only [List.mem_cons] at h ⊢
    exact or_left_comm.mp h
  · exact List.mem_cons.mp h

theorem mem_of_mem_promoted {x : Operation} {ops : List Operation}
    (h : x ∈ ops.foldr promote []) : x ∈ ops := by
  induction ops with
  | nil => exact h
  | cons op ops ih =>
    obtain rfl | h := mem_promote h
    · exact List.mem_cons_self
    · exact List.mem_cons_of_mem op (ih h)

/-- No call is directly behind an index. -/
abbrev NoneBehind (ops : List Operation) : Prop :=
  ops.IsChain fun x y => ¬ (x.role = .index ∧ y.role = .call)

/-- The operations stay where they are just if no call is behind an index. -/
theorem promoted_eq_self_iff {ops : List Operation} :
    ops.foldr promote [] = ops ↔ NoneBehind ops := by
  induction ops with
  | nil => simp [NoneBehind]
  | cons op ops ih =>
    have hhead : (∀ next ∈ ops.head?, ¬ (op.role = .index ∧ next.role = .call)) ↔
        ¬ (op.role = .index ∧ Calls ops) :=
      ⟨fun h ⟨hindex, next, hnext, hcall⟩ => h next hnext ⟨hindex, hcall⟩,
        fun h next hnext ⟨hindex, hcall⟩ => h ⟨hindex, next, hnext, hcall⟩⟩
    rw [NoneBehind, List.isChain_cons, hhead, ← NoneBehind, ← ih, List.foldr_cons]
    constructor
    · intro h
      obtain ⟨hrest, hno⟩ := promote_cons h
      exact ⟨hrest ▸ hno, hrest⟩
    · rintro ⟨hno, hrest⟩
      rw [hrest]
      exact promote_eq hno

/-- A property with its indices and its call, and the line of the call. -/
structure Link where
  access : Access
  line : Int

namespace Link

def calls (l : Link) : List Operation := (l.access.arguments.map (.call l.line ·)).toList

def offsets (l : Link) : List Operation := l.access.property.dimensions.map .offset

/-- The operations of a link in the order in which they are written. -/
def written (l : Link) : List Operation :=
  .property l.access.property.name :: (l.offsets ++ l.calls)

/-- The operations of a link in the order in which they take place. -/
def arranged (l : Link) : List Operation :=
  .property l.access.property.name :: (l.calls ++ l.offsets)

theorem not_calls_arranged (ls : List Link) : ¬ Calls (ls.flatMap arranged) := by
  rintro ⟨op, hop, hrole⟩
  cases ls with
  | nil => cases hop
  | cons l ls =>
    cases hop
    cases hrole

theorem around_arranged (l : Link) (t : Tree) {rest : List Operation} (h : ¬ Calls rest) :
    around line t (l.arranged ++ rest) = around line (Grammar.access line t l.access) rest := by
  obtain ⟨⟨⟨name, ds⟩, args⟩, cl⟩ := l
  cases args with
  | some args => exact around_offsets ds rest
  | none =>
    have hno : ¬ Calls (ds.map .offset ++ rest) := by
      cases ds with
      | nil => exact h
      | cons d ds =>
        rintro ⟨op, hop, hrole⟩
        cases hop
        cases hrole
    exact (around_cons (Or.inr hno)).trans (around_offsets ds rest)

theorem around_links (ls : List Link) (t : Tree) :
    around line t (ls.flatMap arranged) = (ls.map (·.access)).foldl (Grammar.access line) t := by
  induction ls generalizing t with
  | nil => rfl
  | cons l ls ih =>
    rw [List.flatMap_cons, around_arranged l t (not_calls_arranged ls), ih]
    rfl

theorem promote_offsets (ds : List Dimension) {ops : List Operation} (h : ¬ Calls ops) :
    (ds.map Operation.offset).foldr promote ops = ds.map .offset ++ ops := by
  induction ds with
  | nil => rfl
  | cons d ds ih =>
    rw [List.map_cons, List.foldr_cons, ih]
    refine promote_eq (fun hcalls => absurd hcalls.2 ?_)
    cases ds with
    | nil => exact h
    | cons d' ds =>
      rintro ⟨op, hop, hrole⟩
      cases hop
      cases hrole

theorem promote_call (ds : List Dimension) (cl : Int) (args : List Tree)
    (ops : List Operation) :
    (ds.map Operation.offset).foldr promote (.call cl args :: ops) =
      .call cl args :: (ds.map .offset ++ ops) := by
  induction ds with
  | nil => rfl
  | cons d ds ih =>
    rw [List.map_cons, List.foldr_cons, ih]
    rfl

theorem promote_written (l : Link) {ops : List Operation} (h : ¬ Calls ops) :
    l.written.foldr promote ops = l.arranged ++ ops := by
  obtain ⟨⟨⟨name, ds⟩, args⟩, cl⟩ := l
  cases args with
  | none =>
    have hds := promote_offsets ds h
    simp only [written, arranged, offsets, calls, Option.map_none, Option.toList_none,
      List.append_nil, List.nil_append, List.foldr_cons, hds]
    rfl
  | some args =>
    have hds := promote_call ds cl args ops
    simp only [written, arranged, offsets, calls, Option.map_some, Option.toList_some,
      List.foldr_cons, List.foldr_append, List.foldr_nil]
    rw [show promote (.call cl args) ops = .call cl args :: ops from rfl, hds]
    rfl

/-- In links, every call takes place before the indices of its property. -/
theorem promote_links (ls : List Link) :
    (ls.flatMap written).foldr promote [] = ls.flatMap arranged := by
  induction ls with
  | nil => rfl
  | cons l ls ih =>
    rw [List.flatMap_cons, List.foldr_append, ih, promote_written l (not_calls_arranged ls)]
    rfl

end Link

/-- Tokens between brackets, derived from a nonterminal. -/
structure Enclosed (opening : Token.Kind) (v : Nonterminal) (closing : Token.Kind) where
  opener : Token
  inside : List Token
  closer : Token
  opener_kind : opener.kind = opening
  closer_kind : closer.kind = closing
  derived : ∃ d : Derivation v, d.yield = inside

def Enclosed.tokens {opening closing : Token.Kind} {v : Nonterminal}
    (e : Enclosed opening v closing) : List Token :=
  e.opener :: (e.inside ++ [e.closer])

/-- An expression in braces. -/
abbrev Braced := Enclosed .leftBrace .expr .rightBrace

/-- What can be written behind a variable: an index in brackets or in braces, a property with a
name or with an expression for its name, and the arguments of a call. -/
inductive Suffix where
  | index (e : Enclosed .leftBracket .dimension .rightBracket)
  | character (e : Braced)
  | property (arrow name : Token) (ha : arrow.kind = .objectOperator) (hn : name.kind = .ident)
  | computed (arrow : Token) (ha : arrow.kind = .objectOperator) (e : Braced)
  | call (e : Enclosed .leftParen .arguments .rightParen)

namespace Suffix

def tokens : Suffix → List Token
  | index e => e.tokens
  | character e => e.tokens
  | property arrow name _ _ => [arrow, name]
  | computed arrow _ e => arrow :: e.tokens
  | call e => e.tokens

def role : Suffix → Role
  | index _ | character _ => .index
  | property _ _ _ _ | computed _ _ _ => .property
  | call _ => .call

def arrow? : Suffix → Option Token
  | property arrow _ _ _ | computed arrow _ _ => some arrow
  | _ => none

/-- The operation that a suffix stands for. -/
inductive ReadAs (file : Option String) : Suffix → Operation → Prop
  | index {e : Enclosed .leftBracket .dimension .rightBracket} {x : Tree}
      (h : Grammar.ReadAs file .dimension e.inside x) :
      ReadAs file (.index e) (.offset ⟨.arrayOffset, x, e.opener.line⟩)
  | character {e : Braced} {x : Tree} (h : Grammar.ReadAs file .expr e.inside x) :
      ReadAs file (.character e) (.offset ⟨.stringOffset, x, e.opener.line⟩)
  | property {arrow name : Token} {ha : arrow.kind = .objectOperator} {hn : name.kind = .ident} :
      ReadAs file (.property arrow name ha hn) (.property (.text name.text))
  | computed {arrow : Token} {ha : arrow.kind = .objectOperator} {e : Braced} {x : Tree}
      (h : Grammar.ReadAs file .expr e.inside x) :
      ReadAs file (.computed arrow ha e) (.property x)
  | call {e : Enclosed .leftParen .arguments .rightParen} {args : List Tree}
      (h : Grammar.ReadAs file .arguments e.inside args) :
      ReadAs file (.call e) (.call e.opener.line args)

theorem ReadAs.role_eq {s : Suffix} {op : Operation} (h : s.ReadAs file op) :
    op.role = s.role := by
  cases h <;> rfl

end Suffix

/-- A variable with a name, or with an expression for its name. -/
inductive Variable where
  | named (v : Token) (hv : v.kind = .var)
  | computed (dollar : Token) (hd : dollar.kind = .dollar) (e : Braced)

namespace Variable

def tokens : Variable → List Token
  | named v _ => [v]
  | computed dollar _ e => dollar :: e.tokens

/-- The tree that a variable stands for. -/
inductive ReadAs (file : Option String) : Variable → Tree → Prop
  | named {v : Token} {hv : v.kind = .var} :
      ReadAs file (.named v hv) (node v.line .var [.text v.text])
  | computed {dollar : Token} {hd : dollar.kind = .dollar} {e : Braced} {x : Tree}
      (h : Grammar.ReadAs file .expr e.inside x) :
      ReadAs file (.computed dollar hd e) (node dollar.line .var [x])

end Variable

/-- A variable, maybe with dollars before it, and what is written behind it. -/
structure Chain where
  dollars : List Token
  base : Variable
  suffixes : List Suffix
  dollars_kind : ∀ d ∈ dollars, d.kind = .dollar

namespace Chain

def tokens (w : Chain) : List Token :=
  w.dollars ++ (w.base.tokens ++ w.suffixes.flatMap Suffix.tokens)

/-- The line of the properties: that of the first arrow. -/
def arrowLine (w : Chain) : Int := ((w.suffixes.findSome? Suffix.arrow?).map (·.line)).getD 0

/-- What the dollars do, the last one first. -/
def dereferences (w : Chain) : List Operation := w.dollars.reverse.map fun d => .dereference d.line

/-- The order in which operations behind a variable take place: first the indices directly behind
it, then what the dollars before it do, then the others, each call before the indices of its
property. -/
def order (w : Chain) (ops : List Operation) : List Operation :=
  ops.takeWhile (·.role = .index) ++ (w.dereferences ++
    (ops.dropWhile (·.role = .index)).foldr promote [])

/-- No call is written directly behind an index, the indices directly behind the variable apart. -/
def InOrder (w : Chain) : Prop :=
  ((w.suffixes.map Suffix.role).dropWhile (· = .index)).IsChain fun x y =>
    ¬ (x = .index ∧ y = .call)

instance (w : Chain) : Decidable w.InOrder := inferInstanceAs (Decidable (List.IsChain _ _))

/-- A tree is made of a chain: every suffix is read as an operation, and the nodes for them are
built around the variable, one around the other, as they take place. This is the order in which
they are written, the dollars apart, just if the chain is in order. -/
def Nests (file : Option String) (w : Chain) (t : Tree) : Prop :=
  ∃ v ops, w.base.ReadAs file v ∧ w.suffixes.Forall₂ (Suffix.ReadAs file) ops ∧
    ∃ built : List (Operation × Tree), built = nested w.arrowLine v (w.order ops) ∧
      t = outermost v built ∧ built.Pairwise Grammar.Nests ∧
      (((built.map (·.1)).filter (·.role ≠ .dollar)) = ops ↔ w.InOrder)

variable {w : Chain} {ops : List Operation}

theorem roles_eq {ss : List Suffix} (h : ss.Forall₂ (Suffix.ReadAs file) ops) :
    ss.map Suffix.role = ops.map Operation.role := by
  induction h with
  | nil => rfl
  | cons hs _ ih => rw [List.map_cons, List.map_cons, hs.role_eq, ih]

theorem not_dollar {ss : List Suffix} (h : ss.Forall₂ (Suffix.ReadAs file) ops) :
    ∀ op ∈ ops, op.role ≠ .dollar := by
  induction h with
  | nil => simp
  | cons hs _ ih =>
    refine List.forall_mem_cons.mpr ⟨?_, ih⟩
    cases hs <;> simp [Operation.role]

/-- The operations take place as they are written just if the chain is in order. -/
theorem order_eq_iff (h : w.suffixes.Forall₂ (Suffix.ReadAs file) ops) :
    (w.order ops).filter (·.role ≠ .dollar) = ops ↔ w.InOrder := by
  have hindices : ∀ op ∈ ops.takeWhile (·.role = .index), op.role ≠ .dollar :=
    fun op hop => not_dollar h op (List.takeWhile_subset _ hop)
  have hothers : ∀ op ∈ (ops.dropWhile (·.role = .index)).foldr promote [], op.role ≠ .dollar :=
    fun op hop => not_dollar h op (List.dropWhile_subset _ (mem_of_mem_promoted hop))
  have hdollars : w.dereferences.filter (·.role ≠ .dollar) = [] := by
    simp [dereferences, Operation.role]
  have hfilter : (w.order ops).filter (·.role ≠ .dollar) =
      ops.takeWhile (·.role = .index) ++
        (ops.dropWhile (·.role = .index)).foldr promote [] := by
    rw [order, List.filter_append, List.filter_append, hdollars, List.nil_append,
      List.filter_eq_self.mpr (by simpa using hindices),
      List.filter_eq_self.mpr (by simpa using hothers)]
  have hparts := List.takeWhile_append_dropWhile (p := fun op : Operation => op.role = .index)
    (l := ops)
  rw [hfilter]
  nth_rewrite 3 [← hparts]
  rw [List.append_cancel_left_eq, promoted_eq_self_iff, InOrder, roles_eq h, List.dropWhile_map,
    List.isChain_map]
  rfl

end Chain

end Grammar
end Docblock
