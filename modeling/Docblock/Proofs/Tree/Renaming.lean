import Docblock.Proofs.Tree.Magic

/-! Trees that differ in the names of classes, functions and methods only. -/
namespace Docblock.Tree

variable {t u v : Tree} {ts us vs ws fs gs : List Tree} {k : Kind} {line : Option Int} {s : String}
  {i j : Nat}

/-- The fields of a node of some kind, with an empty name if it is such a declaration. -/
def unnamed (k : Kind) : List Tree → List Tree
  | .text s :: rest => .text (if scopeKinds.contains k then "" else s) :: rest
  | fields => fields

mutual
/-- A tree in which classes, functions and methods have an empty name. -/
def nameless : Tree → Tree
  | .node k line fields => .node k line (unnamed k (namelessAll fields))
  | .list items => .list (namelessAll items)
  | t => t

def namelessAll : List Tree → List Tree
  | [] => []
  | t :: ts => t.nameless :: namelessAll ts
end

/-- Trees that are the same but for the names of classes, functions and methods. -/
def Renamed (ts us : List Tree) : Prop := namelessAll us = namelessAll ts

theorem namelessAll_eq (ts : List Tree) : namelessAll ts = ts.map nameless := by
  induction ts with
  | nil => rfl
  | cons t ts ih => rw [namelessAll, ih, List.map_cons]

theorem isList_nameless (t : Tree) : t.nameless.isList = t.isList := by
  cases t <;> rfl

theorem flat_nameless (t : Tree) : t.nameless.flat = t.flat := by
  cases t with
  | list items => simp [nameless, flat, namelessAll_eq, Function.comp_def, isList_nameless]
  | null | bool | int | float | text | node => rfl

theorem isLeaf_nameless (t : Tree) : t.nameless.isLeaf = t.isLeaf := by
  cases t <;> rfl

theorem isOf_nameless (ks : List Kind) (t : Tree) : t.nameless.isOf ks = t.isOf ks := by
  cases t <;> rfl

theorem all_flat_nameless (fs : List Tree) : (namelessAll fs).all flat = fs.all flat := by
  simp [namelessAll_eq, Function.comp_def, flat_nameless]

theorem all_flat_unnamed (k : Kind) (fs : List Tree) : (unnamed k fs).all flat = fs.all flat := by
  unfold unnamed
  split <;> rfl

theorem layout_nameless (k : Kind) (line : Option Int) (fs : List Tree) :
    layout k line (unnamed k (namelessAll fs)) = layout k line fs := by
  cases k with
  | listAssignment | magicConstant | namespaceDecl =>
    -- Only the form of the first two fields matters, and it is kept.
    rcases fs with _ | ⟨a, _ | ⟨b, _ | ⟨c, fs⟩⟩⟩
    · rfl
    · cases a <;> rfl
    · cases a <;>
        simp [namelessAll, unnamed, nameless, layout, isList_nameless, isLeaf_nameless,
          flat_nameless]
    · cases a <;> rfl
  | classDecl | function | method =>
    rcases fs with _ | ⟨a, fs⟩
    · rfl
    · cases a <;> first | rfl | exact all_flat_nameless fs
  | _ => exact (all_flat_unnamed _ _).trans (all_flat_nameless fs)

theorem visitFields_unnamed (k : Kind) (fs : List Tree) :
    visitFields (unnamed k fs) = visitFields fs := by
  unfold unnamed
  split <;> rfl

mutual
/-- Names are not visited. -/
theorem visit_nameless (t : Tree) : t.nameless.visit = t.visit.map nameless := by
  match t with
  | .node k line fs =>
    rw [nameless, visit, visit, List.map_cons, nameless, visitFields_unnamed,
      visitFields_nameless fs]
  | .null | .bool _ | .int _ | .float _ | .text _ | .list _ => rfl

theorem visitFields_nameless (ts : List Tree) :
    visitFields (namelessAll ts) = (visitFields ts).map nameless := by
  match ts with
  | [] => rfl
  | .list items :: rest =>
    rw [namelessAll, nameless, visitFields, visitFields, List.map_append,
      visitItems_nameless items, visitFields_nameless rest]
  | .node k line fs :: rest =>
    rw [namelessAll, visitFields_cons (isList_nameless _), visitFields_cons rfl,
      List.map_append, visit_nameless (.node k line fs), visitFields_nameless rest]
  | .null :: rest | .bool _ :: rest | .int _ :: rest | .float _ :: rest | .text _ :: rest =>
    exact visitFields_nameless rest

theorem visitItems_nameless (ts : List Tree) :
    visitItems (namelessAll ts) = (visitItems ts).map nameless := by
  match ts with
  | [] => rfl
  | t :: rest =>
    rw [namelessAll, visitItems, visitItems, List.map_append, visit_nameless t,
      visitItems_nameless rest]
end

theorem everyNodeIn_unnamed (k : Kind) (fs : List Tree) :
    everyNodeIn layout (unnamed k fs) = everyNodeIn layout fs := by
  unfold unnamed
  split <;> rfl

mutual
theorem laid_nameless (t : Tree) : t.nameless.laid = t.laid := by
  match t with
  | .node k line fs =>
    rw [laid, nameless, everyNode, layout_nameless, everyNodeIn_unnamed, laidAll_nameless fs]
    rfl
  | .list ts => exact laidAll_nameless ts
  | .null | .bool _ | .int _ | .float _ | .text _ => rfl

theorem laidAll_nameless (ts : List Tree) :
    everyNodeIn layout (namelessAll ts) = everyNodeIn layout ts := by
  match ts with
  | [] => rfl
  | t :: ts =>
    have ht := laid_nameless t
    rw [laid, laid] at ht
    rw [namelessAll, everyNodeIn, everyNodeIn, ht, laidAll_nameless ts]
end

theorem Renamed.laid (h : Renamed ts us) (ht : ∀ t ∈ ts, t.laid = true) :
    ∀ u ∈ us, u.laid = true := by
  have hlaid : everyNodeIn layout us = true := by
    rw [← laidAll_nameless, h, laidAll_nameless]
    exact everyNodeIn_iff.mpr ht
  exact everyNodeIn_iff.mp hlaid

/-- What is visited at one position in trees that are the same but for names is so too. -/
theorem Renamed.get (h : Renamed ts us) (i : Nat) :
    (visitItems us)[i]?.map nameless = (visitItems ts)[i]?.map nameless := by
  rw [← List.getElem?_map, ← List.getElem?_map, ← visitItems_nameless, ← visitItems_nameless, h]

/-- A field is found in the same way in trees that are the same but for names. -/
theorem lookup_nameless {n : String} (ks : List String) (h : namelessAll fs = namelessAll gs) :
    ((ks.zip fs).lookup n).map nameless = ((ks.zip gs).lookup n).map nameless := by
  induction ks generalizing fs gs with
  | nil => rfl
  | cons k ks ih =>
    rcases fs with _ | ⟨a, fs⟩ <;> rcases gs with _ | ⟨b, gs⟩
    · rfl
    · cases h
    · cases h
    · obtain ⟨hab, hrest⟩ := List.cons.inj h
      simp only [List.zip_cons_cons, List.lookup_cons]
      split
      · exact congrArg some hab
      · exact ih hrest

theorem text?_nameless (t : Tree) : t.nameless.text? = t.text? := by
  cases t <;> rfl

theorem name?_eq (h : namelessAll fs = namelessAll gs) :
    (Tree.node k line fs).name? = (Tree.node k line gs).name? := by
  have htext (o : Option Tree) : o.bind text? = (o.map nameless).bind text? := by
    cases o <;> simp [text?_nameless]
  rw [name?, name?, htext, htext (field? _ _)]
  exact congrArg (·.bind text?) (lookup_nameless k.fields h)

/-- Only classes, functions and methods may have another name. -/
theorem name?_of_nameless (h : t.nameless = u.nameless) (ht : t.isOf [k] = true)
    (hk : k ∉ scopeKinds) : t.name? = u.name? := by
  have hu : u.isOf [k] = true := by rwa [← isOf_nameless, ← h, isOf_nameless]
  have hunnamed (es : List Tree) : unnamed k es = es := by
    unfold unnamed
    split
    · simp [hk]
    · rfl
  obtain ⟨line, fs, rfl⟩ := isOf_singleton ht
  obtain ⟨line', gs, rfl⟩ := isOf_singleton hu
  obtain ⟨-, rfl, hfields⟩ := Tree.node.inj h
  rw [hunnamed, hunnamed] at hfields
  exact name?_eq hfields

/-- Some nodes have the names of others, but for the node at one position. -/
def RenamedAt (s : String) (j : Nat) (vs ws : List Tree) : Prop :=
  ws.map name? = (vs.map name?).set j (some s)

/-- A position among some nodes and then others is one of the former or one of the latter. -/
theorem renamedAt_append (s : String) (hj : (vs ++ ws)[j]? = some v) :
    (vs[j]? = some v ∧ ∀ vs', RenamedAt s j vs vs' → RenamedAt s j (vs ++ ws) (vs' ++ ws)) ∨
      ∃ i, ws[i]? = some v ∧
        ∀ ws', RenamedAt s i ws ws' → RenamedAt s j (vs ++ ws) (vs ++ ws') := by
  by_cases hlt : j < vs.length
  · rw [List.getElem?_append_left hlt] at hj
    refine .inl ⟨hj, fun vs' h => ?_⟩
    rw [RenamedAt, List.map_append, List.map_append, h,
      List.set_append_left _ _ (by simpa using hlt)]
  · rw [List.getElem?_append_right (Nat.not_lt.mp hlt)] at hj
    refine .inr ⟨_, hj, fun ws' h => ?_⟩
    rw [RenamedAt, List.map_append, List.map_append, h,
      List.set_append_right _ _ (by simpa using hlt), List.length_map]

/-- A declaration can be given another name. -/
theorem exists_renamed_here (s : String) (h : layout k line fs = true) (hk : k ∈ scopeKinds) :
    ∃ u, nameless u = nameless (.node k line fs) ∧
      RenamedAt s 0 (Tree.node k line fs).visit u.visit := by
  obtain ⟨n, rest, rfl⟩ := layout_scope h hk
  refine ⟨.node k line (.text s :: rest), ?_, ?_⟩
  · simp [nameless, namelessAll, unnamed, hk]
  · rw [RenamedAt, visit, visit, List.map_cons, List.map_cons, name?_scope hk]
    rfl

/-- What is not visited may stand before it. -/
theorem exists_renamed_behind (ht : t.isLeaf = true)
    (h : ∃ us, namelessAll us = namelessAll ts ∧
      RenamedAt s j (visitFields ts) (visitFields us)) :
    ∃ us, namelessAll us = namelessAll (t :: ts) ∧
      RenamedAt s j (visitFields (t :: ts)) (visitFields us) := by
  obtain ⟨us, hus, hat⟩ := h
  refine ⟨t :: us, by rw [namelessAll, namelessAll, hus], ?_⟩
  rwa [visitFields_leaf ht, visitFields_leaf ht]

mutual
/-- A declaration that is visited can be given another name. -/
theorem exists_renamed (s : String) (j : Nat) (t : Tree) (h : t.laid = true)
    (hj : t.visit[j]? = some v) (hv : v.isOf scopeKinds = true) :
    ∃ u, nameless u = t.nameless ∧ RenamedAt s j t.visit u.visit := by
  match t, j with
  | .node k line fs, 0 =>
    cases hj
    exact exists_renamed_here s (laid_node.mp h).1 (by simpa [isOf] using hv)
  | .node k line fs, j + 1 =>
    obtain ⟨gs, hgs, hat⟩ := exists_renamedFields s j fs (laid_node.mp h).2 hj hv
    refine ⟨.node k line gs, by rw [nameless, nameless, hgs], ?_⟩
    rw [RenamedAt, visit, visit, List.map_cons, List.map_cons, name?_eq hgs, hat]
    rfl

theorem exists_renamedFields (s : String) (j : Nat) (ts : List Tree)
    (h : ∀ t ∈ ts, t.laid = true) (hj : (visitFields ts)[j]? = some v)
    (hv : v.isOf scopeKinds = true) :
    ∃ us, namelessAll us = namelessAll ts ∧ RenamedAt s j (visitFields ts) (visitFields us) := by
  match ts with
  | .list items :: rest =>
    obtain ⟨hitems, hrest⟩ := List.forall_mem_cons.mp h
    obtain ⟨hfirst, hput⟩ | ⟨i, hlast, hput⟩ := renamedAt_append s hj
    · obtain ⟨us, hus, hat⟩ := exists_renamedItems s j items (laid_list.mp hitems) hfirst hv
      exact ⟨.list us :: rest, by rw [namelessAll, namelessAll, nameless, nameless, hus],
        hput _ hat⟩
    · obtain ⟨us, hus, hat⟩ := exists_renamedFields s i rest hrest hlast hv
      exact ⟨.list items :: us, by rw [namelessAll, namelessAll, hus], hput _ hat⟩
  | .node k line fs :: rest =>
    obtain ⟨hnode, hrest⟩ := List.forall_mem_cons.mp h
    obtain ⟨hfirst, hput⟩ | ⟨i, hlast, hput⟩ := renamedAt_append s hj
    · obtain ⟨u, hu, hat⟩ := exists_renamed s j (.node k line fs) hnode hfirst hv
      refine ⟨u :: rest, by rw [namelessAll, namelessAll, hu], ?_⟩
      rw [visitFields_cons (t := u) (by rw [← isList_nameless, hu]; rfl)]
      exact hput _ hat
    · obtain ⟨us, hus, hat⟩ := exists_renamedFields s i rest hrest hlast hv
      exact ⟨.node k line fs :: us, by rw [namelessAll, namelessAll, hus], hput _ hat⟩
  | .null :: rest | .bool _ :: rest | .int _ :: rest | .float _ :: rest | .text _ :: rest =>
    exact exists_renamed_behind rfl
      (exists_renamedFields s j rest (List.forall_mem_cons.mp h).2 hj hv)

theorem exists_renamedItems (s : String) (j : Nat) (ts : List Tree)
    (h : ∀ t ∈ ts, t.laid = true) (hj : (visitItems ts)[j]? = some v)
    (hv : v.isOf scopeKinds = true) :
    ∃ us, namelessAll us = namelessAll ts ∧ RenamedAt s j (visitItems ts) (visitItems us) := by
  match ts with
  | t :: rest =>
    obtain ⟨ht, hrest⟩ := List.forall_mem_cons.mp h
    obtain ⟨hfirst, hput⟩ | ⟨i, hlast, hput⟩ := renamedAt_append s hj
    · obtain ⟨u, hu, hat⟩ := exists_renamed s j t ht hfirst hv
      exact ⟨u :: rest, by rw [namelessAll, namelessAll, hu], hput _ hat⟩
    · obtain ⟨us, hus, hat⟩ := exists_renamedItems s i rest hrest hlast hv
      exact ⟨t :: us, by rw [namelessAll, namelessAll, hus], hput _ hat⟩
end

end Docblock.Tree
