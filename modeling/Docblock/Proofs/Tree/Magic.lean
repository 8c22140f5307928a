import Docblock.Grammar.Literal
import Docblock.Proofs.Tree.Layout
import Docblock.Tree.Magic

/-! Constants that name their place: each gets the names of the declarations that were visited last
before it. -/
namespace Docblock.Tree

open Docblock.Grammar (optionalText)

variable {t u v w : Tree} {ts us vs ws ns : List Tree} {k : Kind} {line : Option Int}
  {p : Place} {name : String}

/-- The constants that name a place. -/
def placeNames : List String := ["__NAMESPACE__", "__CLASS__", "__FUNCTION__", "__METHOD__"]

def text? : Tree → Option String
  | .text s => some s
  | _ => none

/-- The name of a node, if it is a text. -/
def name? (t : Tree) : Option String := (t.field? "name").bind text?

/-- The name of the last of some nodes that is of a kind. -/
def latest (k : Kind) (ns : List Tree) : Option String :=
  (ns.filter (isOf [k])).getLast?.bind name?

/-- A name behind an outer one, if there is one that is not empty. -/
def qualified (outer : Option String) (mark : String) (name : Option String) : Option String :=
  match outer with
  | none | some "" => name
  | some s => some (s ++ mark ++ name.getD "None")

/-- What a constant names behind some nodes. -/
def placeName (ns : List Tree) : String → Option String
  | "__NAMESPACE__" => latest .namespaceDecl ns
  | "__CLASS__" => qualified (latest .namespaceDecl ns) "\\" (latest .classDecl ns)
  | "__FUNCTION__" => qualified (latest .namespaceDecl ns) "\\" (latest .function ns)
  | "__METHOD__" =>
    qualified (latest .namespaceDecl ns) "\\"
      (qualified (latest .classDecl ns) "::" (latest .method ns))
  | _ => none

/-- The place behind some nodes. -/
def placeAfter (ns : List Tree) : Place where
  namespaceName := optionalText (latest .namespaceDecl ns)
  className := optionalText (latest .classDecl ns)
  functionName := optionalText (latest .function ns)
  methodName := optionalText (latest .method ns)

theorem display_optionalText (n : Option String) : (optionalText n).display = n.getD "None" := by
  cases n <;> rfl

/-- A name is put behind another one that counts as set. -/
theorem optionalText_qualified (outer : Option String) (mark : String) (n : Option String) :
    optionalText (qualified outer mark n) =
      if (optionalText outer).truthy then
        .text ((optionalText outer).display ++ mark ++ (optionalText n).display)
      else optionalText n := by
  rw [display_optionalText, display_optionalText]
  unfold qualified
  split
  · rfl
  · rfl
  · rename_i s hs
    have htruthy : (optionalText (some s)).truthy = true := by
      simpa [optionalText, truthy, String.isEmpty_iff] using hs
    rw [if_pos htruthy]
    rfl

theorem value?_placeAfter (h : name ∈ placeNames) :
    (placeAfter ns).value? (.text name) = some (optionalText (placeName ns name)) := by
  simp only [placeNames, List.mem_cons, List.not_mem_nil, or_false] at h
  obtain rfl | rfl | rfl | rfl := h
  · rfl
  · rw [placeName, optionalText_qualified]
    rfl
  · rw [placeName, optionalText_qualified]
    rfl
  · rw [placeName, optionalText_qualified, optionalText_qualified]
    rfl

theorem exists_value (p : Place) (h : name ∈ placeNames) :
    ∃ value, p.value? (.text name) = some value := by
  simp only [placeNames, List.mem_cons, List.not_mem_nil, or_false] at h
  obtain rfl | rfl | rfl | rfl := h <;> exact ⟨_, rfl⟩

theorem value?_none (h : name ∉ placeNames) : p.value? (.text name) = none := by
  simp only [placeNames, List.mem_cons, List.not_mem_nil, or_false, not_or] at h
  unfold Place.value?
  split <;> simp_all

theorem latest_snoc (k : Kind) (ns : List Tree) (t : Tree) :
    latest k (ns ++ [t]) = if t.isOf [k] then t.name? else latest k ns := by
  unfold latest
  rw [List.filter_append]
  cases h : t.isOf [k] <;> simp [h]

theorem latest_snoc_other {k' : Kind} (h : k ≠ k') :
    latest k' (ns ++ [Tree.node k line ts]) = latest k' ns := by
  rw [latest_snoc, if_neg]
  simpa [isOf] using h

theorem name?_scope {s : String} (hk : k ∈ scopeKinds) :
    (Tree.node k line (.text s :: ts)).name? = some s := by
  obtain rfl | rfl | rfl := mem_scopeKinds.mp hk <;> rfl

/-- The first field of a declaration is its name. -/
theorem layout_declaration (h : layout k line ts = true)
    (hk : k = .namespaceDecl ∨ k ∈ scopeKinds) :
    ∃ n rest, ts = optionalText n :: rest ∧ (Tree.node k line ts).name? = n := by
  obtain rfl | hk := hk
  · simp only [layout] at h
    split at h
    · exact ⟨some _, _, rfl, rfl⟩
    · exact ⟨none, _, rfl, rfl⟩
    · cases h
  · obtain ⟨s, rest, rfl⟩ := layout_scope h hk
    exact ⟨some s, rest, rfl, name?_scope hk⟩

theorem enter_other (hk : ¬(k = .namespaceDecl ∨ k ∈ scopeKinds)) : p.enter k ts = p := by
  rw [mem_scopeKinds] at hk
  unfold Place.enter
  split <;> first | rfl | simp at hk

/-- The start of a node leads to the place behind it. -/
theorem enter_placeAfter (ns : List Tree) (h : layout k line ts = true) :
    (placeAfter ns).enter k ts = placeAfter (ns ++ [Tree.node k line ts]) := by
  by_cases hk : k = .namespaceDecl ∨ k ∈ scopeKinds
  · obtain ⟨n, rest, rfl, hname⟩ := layout_declaration h hk
    rw [mem_scopeKinds] at hk
    obtain rfl | rfl | rfl | rfl := hk
    all_goals simp [placeAfter, Place.enter, latest_snoc, isOf, hname]
  · rw [enter_other hk]
    simp only [mem_scopeKinds, not_or] at hk
    simp only [placeAfter, latest_snoc_other hk.1, latest_snoc_other hk.2.1,
      latest_snoc_other hk.2.2.1, latest_snoc_other hk.2.2.2]

/-- What resolution makes of a node behind some nodes. -/
inductive Settles (ns : List Tree) : Tree → Tree → Prop
  | place {line : Option Int} {name : String} {value : Tree} (h : name ∈ placeNames) :
      Settles ns (.node .magicConstant line [.text name, value])
        (.node .magicConstant line [.text name, optionalText (placeName ns name)])
  | constant {line : Option Int} {name : String} {value : Tree} (h : name ∉ placeNames) :
      Settles ns (.node .magicConstant line [.text name, value])
        (.node .magicConstant line [.text name, value])
  | other {k : Kind} {line : Option Int} {fs gs : List Tree} (h : k ≠ .magicConstant) :
      Settles ns (.node k line fs) (.node k line gs)

/-- What resolution makes of nodes one after another. -/
inductive SettlesAll : List Tree → List Tree → List Tree → Prop
  | nil (ns : List Tree) : SettlesAll ns [] []
  | cons {ns : List Tree} {v w : Tree} {vs ws : List Tree} (h : Settles ns v w)
      (hs : SettlesAll (ns ++ [v]) vs ws) : SettlesAll ns (v :: vs) (w :: ws)

theorem SettlesAll.append {vs' ws' : List Tree} (h : SettlesAll ns vs ws)
    (h' : SettlesAll (ns ++ vs) vs' ws') : SettlesAll ns (vs ++ vs') (ws ++ ws') := by
  induction h with
  | nil ns => simpa using h'
  | cons h _ ih => exact .cons h (ih (by simpa using h'))

/-- At each position, resolution makes of a node what it does behind the nodes before it. -/
theorem SettlesAll.get (h : SettlesAll ns vs ws) (i : Nat) :
    (vs[i]? = none ∧ ws[i]? = none) ∨
      ∃ v w, vs[i]? = some v ∧ ws[i]? = some w ∧ Settles (ns ++ vs.take i) v w := by
  induction h generalizing i with
  | nil => exact .inl ⟨rfl, rfl⟩
  | @cons ns v w vs ws h _ ih =>
    cases i with
    | zero => exact .inr ⟨v, w, rfl, rfl, by simpa using h⟩
    | succ i => simpa using ih i

theorem resolve_node (h : p.fields? k ts = none) :
    resolve p (.node k line ts) = (.node k line (resolveFields (p.enter k ts) ts).1,
      (resolveFields (p.enter k ts) ts).2) := by
  rw [resolve, h]

theorem resolveFields_list (items : List Tree) :
    resolveFields p (.list items :: ts) =
      (.list (resolveItems p items).1 :: (resolveFields (resolveItems p items).2 ts).1,
        (resolveFields (resolveItems p items).2 ts).2) := by
  rw [resolveFields]

theorem resolveFields_cons (h : t.isList = false) :
    resolveFields p (t :: ts) =
      ((resolve p t).1 :: (resolveFields (resolve p t).2 ts).1,
        (resolveFields (resolve p t).2 ts).2) := by
  cases t <;> first | rfl | cases h

theorem resolveItems_cons : resolveItems p (t :: ts) =
    ((resolve p t).1 :: (resolveItems (resolve p t).2 ts).1,
      (resolveItems (resolve p t).2 ts).2) := by
  rw [resolveItems]

theorem resolveFields_leaf (h : t.isLeaf = true) :
    resolveFields p (t :: ts) = (t :: (resolveFields p ts).1, (resolveFields p ts).2) := by
  cases t <;> first | rfl | cases h

theorem visitFields_leaf (h : t.isLeaf = true) : visitFields (t :: ts) = visitFields ts := by
  cases t <;> first | rfl | cases h

theorem isList_resolve : (resolve p t).1.isList = t.isList := by
  cases t with
  | node k line ts =>
    rw [resolve]
    split <;> rfl
  | null | bool | int | float | text | list => rfl

theorem isLeaf_optionalText (n : Option String) : (optionalText n).isLeaf = true := by
  cases n <;> rfl

theorem layout_constant (h : layout .magicConstant line ts = true) :
    ∃ name value, ts = [.text name, value] ∧ value.isLeaf = true := by
  simp only [layout] at h
  split at h
  · exact ⟨_, _, rfl, h⟩
  · cases h

/-- A constant that names a place gets its value there. -/
theorem resolve_place {value : Tree} (h : p.value? (.text name) = some value) :
    resolve p (.node .magicConstant line [.text name, t]) =
      (.node .magicConstant line [.text name, value], p) := by
  simp [resolve, Place.fields?, h]

/-- Any other constant stays as it is. -/
theorem resolve_constant (h : name ∉ placeNames) (ht : t.isLeaf = true) :
    resolve p (.node .magicConstant line [.text name, t]) =
      (.node .magicConstant line [.text name, t], p) := by
  have hfields : p.fields? .magicConstant [.text name, t] = none := by
    rw [Place.fields?, value?_none h]
    rfl
  rw [resolve_node hfields, resolveFields_leaf rfl, resolveFields_leaf ht, resolveFields]
  rfl

theorem fields?_other (h : k ≠ .magicConstant) : p.fields? k ts = none := by
  unfold Place.fields?
  split
  · exact absurd rfl h
  · rfl

theorem visit_constant (h : t.isLeaf = true) :
    (Tree.node .magicConstant line [.text name, t]).visit =
      [.node .magicConstant line [.text name, t]] := by
  rw [visit, visitFields_leaf rfl, visitFields_leaf h, visitFields]

/-- A resolution that starts behind some nodes ends behind the nodes it has visited, and each of
these is what it has to be at its place. -/
def Settled (ns vs ws : List Tree) (q : Place) : Prop :=
  q = placeAfter (ns ++ vs) ∧ SettlesAll ns vs ws

theorem Settled.nil : Settled ns [] [] (placeAfter ns) := ⟨by simp, .nil ns⟩

theorem Settled.append {vs' ws' : List Tree} {q r : Place} (h : Settled ns vs ws q)
    (h' : Settled (ns ++ vs) vs' ws' r) : Settled ns (vs ++ vs') (ws ++ ws') r :=
  ⟨by simpa using h'.1, h.2.append h'.2⟩

theorem settled_constant (h : layout .magicConstant line ts = true) :
    Settled ns (Tree.node .magicConstant line ts).visit
      (resolve (placeAfter ns) (.node .magicConstant line ts)).1.visit
      (resolve (placeAfter ns) (.node .magicConstant line ts)).2 := by
  have hplace := enter_placeAfter ns h
  obtain ⟨name, value, rfl, hleaf⟩ := layout_constant h
  rw [visit_constant hleaf]
  by_cases hname : name ∈ placeNames
  · rw [resolve_place (value?_placeAfter hname), visit_constant (isLeaf_optionalText _)]
    exact ⟨hplace, .cons (.place hname) (.nil _)⟩
  · rw [resolve_constant hname hleaf, visit_constant hleaf]
    exact ⟨hplace, .cons (.constant hname) (.nil _)⟩

mutual
theorem resolve_settled (ns : List Tree) (t : Tree) (h : t.laid = true) :
    Settled ns t.visit (resolve (placeAfter ns) t).1.visit (resolve (placeAfter ns) t).2 := by
  match t with
  | .node k line fs =>
    obtain ⟨hlayout, hfs⟩ := laid_node.mp h
    by_cases hk : k = .magicConstant
    · subst hk
      exact settled_constant hlayout
    · have hfields := resolveFields_settled (ns ++ [Tree.node k line fs]) fs hfs
      rw [resolve_node (fields?_other hk), enter_placeAfter ns hlayout]
      exact ⟨by simpa [visit] using hfields.1, .cons (.other hk) hfields.2⟩
  | .null | .bool _ | .int _ | .float _ | .text _ | .list _ => exact .nil

theorem resolveFields_settled (ns ts : List Tree) (h : ∀ t ∈ ts, t.laid = true) :
    Settled ns (visitFields ts) (visitFields (resolveFields (placeAfter ns) ts).1)
      (resolveFields (placeAfter ns) ts).2 := by
  match ts with
  | [] => exact .nil
  | .list items :: rest =>
    obtain ⟨hitems, hrest⟩ := List.forall_mem_cons.mp h
    have hfirst := resolveItems_settled ns items (laid_list.mp hitems)
    rw [resolveFields_list, hfirst.1]
    exact hfirst.append (resolveFields_settled _ rest hrest)
  | .node k line fs :: rest =>
    obtain ⟨hnode, hrest⟩ := List.forall_mem_cons.mp h
    have hfirst := resolve_settled ns (.node k line fs) hnode
    rw [resolveFields_cons rfl, hfirst.1, visitFields_cons rfl,
      visitFields_cons (isList_resolve.trans rfl)]
    exact hfirst.append (resolveFields_settled _ rest hrest)
  | .null :: rest | .bool _ :: rest | .int _ :: rest | .float _ :: rest | .text _ :: rest =>
    exact resolveFields_settled ns rest (List.forall_mem_cons.mp h).2

theorem resolveItems_settled (ns ts : List Tree) (h : ∀ t ∈ ts, t.laid = true) :
    Settled ns (visitItems ts) (visitItems (resolveItems (placeAfter ns) ts).1)
      (resolveItems (placeAfter ns) ts).2 := by
  match ts with
  | [] => exact .nil
  | t :: rest =>
    obtain ⟨ht, hrest⟩ := List.forall_mem_cons.mp h
    have hfirst := resolve_settled ns t ht
    rw [resolveItems_cons, hfirst.1]
    exact hfirst.append (resolveItems_settled _ rest hrest)
end

/-- The constant that a node is, if it names a place. -/
def placed? : Kind → List Tree → Option String
  | .magicConstant, [.text name, _] => if name ∈ placeNames then some name else none
  | _, _ => none

mutual
/-- A tree without the values of the visited constants that name a place. -/
def unresolved : Tree → Tree
  | .node k line fields =>
    match placed? k fields with
    | some name => .node k line [.text name, .null]
    | none => .node k line (unresolvedFields fields)
  | t => t

def unresolvedFields : List Tree → List Tree
  | [] => []
  | .list items :: rest => .list (unresolvedItems items) :: unresolvedFields rest
  | t :: rest => t.unresolved :: unresolvedFields rest

def unresolvedItems : List Tree → List Tree
  | [] => []
  | t :: rest => t.unresolved :: unresolvedItems rest
end

theorem placed?_other (h : k ≠ .magicConstant) : placed? k ts = none := by
  unfold placed?
  split
  · exact absurd rfl h
  · rfl

theorem unresolved_node (h : k ≠ .magicConstant) :
    unresolved (.node k line ts) = .node k line (unresolvedFields ts) := by
  rw [unresolved, placed?_other h]

theorem unresolvedFields_cons (h : t.isList = false) :
    unresolvedFields (t :: ts) = t.unresolved :: unresolvedFields ts := by
  cases t <;> first | rfl | cases h

mutual
theorem unresolved_resolve (p : Place) (t : Tree) (h : t.laid = true) :
    (resolve p t).1.unresolved = t.unresolved := by
  match t with
  | .node k line fs =>
    obtain ⟨hlayout, hfs⟩ := laid_node.mp h
    by_cases hk : k = .magicConstant
    · subst hk
      obtain ⟨name, value, rfl, hleaf⟩ := layout_constant hlayout
      by_cases hname : name ∈ placeNames
      · obtain ⟨value', hvalue⟩ := exists_value p hname
        rw [resolve_place hvalue]
        simp [unresolved, placed?, hname]
      · rw [resolve_constant hname hleaf]
    · rw [resolve_node (fields?_other hk), unresolved_node hk, unresolved_node hk,
        unresolved_resolveFields _ fs hfs]
  | .null | .bool _ | .int _ | .float _ | .text _ | .list _ => rfl

theorem unresolved_resolveFields (p : Place) (ts : List Tree) (h : ∀ t ∈ ts, t.laid = true) :
    unresolvedFields (resolveFields p ts).1 = unresolvedFields ts := by
  match ts with
  | [] => rfl
  | .list items :: rest =>
    obtain ⟨hitems, hrest⟩ := List.forall_mem_cons.mp h
    rw [resolveFields_list, unresolvedFields, unresolvedFields,
      unresolved_resolveItems p items (laid_list.mp hitems), unresolved_resolveFields _ rest hrest]
  | .node k line fs :: rest =>
    obtain ⟨hnode, hrest⟩ := List.forall_mem_cons.mp h
    rw [resolveFields_cons rfl, unresolvedFields_cons (isList_resolve.trans rfl),
      unresolvedFields_cons rfl, unresolved_resolve p _ hnode,
      unresolved_resolveFields _ rest hrest]
  | .null :: rest | .bool _ :: rest | .int _ :: rest | .float _ :: rest | .text _ :: rest =>
    rw [resolveFields_leaf rfl, unresolvedFields_cons rfl, unresolvedFields_cons rfl,
      unresolved_resolveFields p rest (List.forall_mem_cons.mp h).2]

theorem unresolved_resolveItems (p : Place) (ts : List Tree) (h : ∀ t ∈ ts, t.laid = true) :
    unresolvedItems (resolveItems p ts).1 = unresolvedItems ts := by
  match ts with
  | [] => rfl
  | t :: rest =>
    obtain ⟨ht, hrest⟩ := List.forall_mem_cons.mp h
    rw [resolveItems_cons, unresolvedItems, unresolvedItems, unresolved_resolve p t ht,
      unresolved_resolveItems _ rest hrest]
end

/-- A resolution does not change the name that a declaration starts with. -/
theorem enter_resolveFields (p q : Place) (h : layout k line ts = true) :
    p.enter k (resolveFields q ts).1 = p.enter k ts := by
  by_cases hk : k = .namespaceDecl ∨ k ∈ scopeKinds
  · obtain ⟨n, rest, rfl, -⟩ := layout_declaration h hk
    rw [resolveFields_leaf (isLeaf_optionalText n)]
    rw [mem_scopeKinds] at hk
    obtain rfl | rfl | rfl | rfl := hk <;> rfl
  · rw [enter_other hk, enter_other hk]

mutual
theorem resolve_resolve (p : Place) (t : Tree) (h : t.laid = true) :
    resolve p (resolve p t).1 = resolve p t := by
  match t with
  | .node k line fs =>
    obtain ⟨hlayout, hfs⟩ := laid_node.mp h
    by_cases hk : k = .magicConstant
    · subst hk
      obtain ⟨name, value, rfl, hleaf⟩ := layout_constant hlayout
      by_cases hname : name ∈ placeNames
      · obtain ⟨value', hvalue⟩ := exists_value p hname
        rw [resolve_place hvalue, resolve_place hvalue]
      · rw [resolve_constant hname hleaf, resolve_constant hname hleaf]
    · rw [resolve_node (fields?_other hk), resolve_node (fields?_other hk),
        enter_resolveFields _ _ hlayout, resolve_resolveFields _ fs hfs]
  | .null | .bool _ | .int _ | .float _ | .text _ | .list _ => rfl

theorem resolve_resolveFields (p : Place) (ts : List Tree) (h : ∀ t ∈ ts, t.laid = true) :
    resolveFields p (resolveFields p ts).1 = resolveFields p ts := by
  match ts with
  | [] => rfl
  | .list items :: rest =>
    obtain ⟨hitems, hrest⟩ := List.forall_mem_cons.mp h
    rw [resolveFields_list, resolveFields_list, resolve_resolveItems p items (laid_list.mp hitems),
      resolve_resolveFields _ rest hrest]
  | .node k line fs :: rest =>
    obtain ⟨hnode, hrest⟩ := List.forall_mem_cons.mp h
    rw [resolveFields_cons rfl, resolveFields_cons (isList_resolve.trans rfl),
      resolve_resolve p _ hnode, resolve_resolveFields _ rest hrest]
  | .null :: rest | .bool _ :: rest | .int _ :: rest | .float _ :: rest | .text _ :: rest =>
    rw [resolveFields_leaf rfl, resolveFields_leaf rfl,
      resolve_resolveFields p rest (List.forall_mem_cons.mp h).2]

theorem resolve_resolveItems (p : Place) (ts : List Tree) (h : ∀ t ∈ ts, t.laid = true) :
    resolveItems p (resolveItems p ts).1 = resolveItems p ts := by
  match ts with
  | [] => rfl
  | t :: rest =>
    obtain ⟨ht, hrest⟩ := List.forall_mem_cons.mp h
    rw [resolveItems_cons, resolveItems_cons, resolve_resolve p t ht,
      resolve_resolveItems _ rest hrest]
end

end Docblock.Tree
