import Docblock.Proofs.Places
import Docblock.Proofs.Tree.Renaming

/-! A constant that names its place depends on the declarations around it only, if and only if the
declarations that it names are around it: a declaration that has ended is still named. -/
namespace Docblock

open Token Grammar

variable {f g : Filter} {file : Option String} {text : List Char}

namespace Tree

variable {t : Tree} {ts us ns ms : List Tree} {k : Kind} {name s : String} {i j : Nat}

/-- The name of the node that is visited at a position. -/
def nameAt (ts : List Tree) (j : Nat) : Option String := (visitItems ts)[j]?.bind name?

/-- The value that the node that is visited at a position has after resolution. -/
def valueAt (ts : List Tree) (i : Nat) : Option Tree :=
  (visitItems (resolveAll ts))[i]?.bind (·.field? "value")

/-- The position of the last node of a kind before a position. -/
def lastBefore (k : Kind) (ns : List Tree) : Nat → Option Nat
  | 0 => none
  | i + 1 => if ns[i]?.any (isOf [k]) then some i else lastBefore k ns i

/-- The constants that name a class, a function or a method. -/
def scopeNames : List String := ["__CLASS__", "__FUNCTION__", "__METHOD__"]

/-- The declarations that such a constant names. -/
def shownKinds : String → List Kind
  | "__CLASS__" => [.classDecl]
  | "__FUNCTION__" => [.function]
  | "__METHOD__" => [.classDecl, .method]
  | _ => []

/-- The node that is visited at position `j` is around the one at position `i`: the visit of the
former comes by the latter. -/
def Encloses (ts : List Tree) (j i : Nat) : Prop :=
  ∃ t : Tree, t.visit <+: (visitItems ts).drop j ∧ j < i ∧ i < j + t.visit.length

theorem visit_head (h : t.visit ≠ []) : t.visit[0]? = some t := by
  cases t <;> first | rfl | exact absurd rfl h

theorem encloses_iff :
    Encloses ts j i ↔ j < i ∧ ∃ t, (visitItems ts)[j]? = some t ∧ i < j + t.visit.length := by
  constructor
  · rintro ⟨t, ⟨rest, hrest⟩, hji, hi⟩
    have hlength : 0 < t.visit.length := by omega
    refine ⟨hji, t, ?_, hi⟩
    rw [← Nat.add_zero j, ← List.getElem?_drop, ← hrest, List.getElem?_append_left hlength,
      visit_head (List.length_pos_iff.mp hlength)]
  · rintro ⟨hji, t, ht, hi⟩
    exact ⟨t, visitItems_drop j ts ht, hji, hi⟩

instance (ts : List Tree) (j i : Nat) : Decidable (Encloses ts j i) :=
  decidable_of_iff (j < i ∧ (visitItems ts)[j]?.any (fun t => i < j + t.visit.length) = true)
    (by simp [encloses_iff, Option.any_eq_true])

theorem latest_take (k : Kind) (ts : List Tree) (i : Nat) :
    latest k ((visitItems ts).take i) = (lastBefore k (visitItems ts) i).bind (nameAt ts) := by
  induction i with
  | zero => rfl
  | succ i ih =>
    rw [lastBefore, List.take_add_one]
    cases h : (visitItems ts)[i]? with
    | none => simpa using ih
    | some t => cases hk : t.isOf [k] <;> simp [latest_snoc, hk, ih, nameAt, h]

theorem lastBefore_isOf (h : lastBefore k ns i = some j) :
    ∃ t, ns[j]? = some t ∧ t.isOf [k] = true := by
  induction i with
  | zero => cases h
  | succ i ih =>
    rw [lastBefore] at h
    split at h
    case isTrue hany =>
      cases h
      exact (Option.any_eq_true _ _).mp hany
    case isFalse => exact ih h

/-- Other names leave every declaration where it is. -/
theorem lastBefore_renamed (h : Renamed ts us) (k : Kind) (i : Nat) :
    lastBefore k (visitItems us) i = lastBefore k (visitItems ts) i := by
  have hany (o : Option Tree) : o.any (isOf [k]) = (o.map nameless).any (isOf [k]) := by
    cases o <;> simp [isOf_nameless]
  induction i with
  | zero => rfl
  | succ i ih => rw [lastBefore, lastBefore, hany, h.get, ← hany, ih]

theorem exists_visited_renamed (h : Renamed ts us) (ht : (visitItems ts)[i]? = some t) :
    ∃ u, (visitItems us)[i]? = some u ∧ t.nameless = u.nameless := by
  have hget := h.get i
  rw [ht, Option.map_some, Option.map_eq_some_iff] at hget
  obtain ⟨u, hu, hsame⟩ := hget
  exact ⟨u, hu, hsame.symm⟩

theorem nameAt_eq (ht : (visitItems ts)[j]? = some t) : nameAt ts j = t.name? := by
  rw [nameAt, ht, Option.bind_some]

theorem nameAt_renamed (h : Renamed ts us) (ht : (visitItems ts)[j]? = some t)
    (hk : t.isOf [k] = true) (hscope : k ∉ scopeKinds) : nameAt us j = nameAt ts j := by
  obtain ⟨u, hu, hsame⟩ := exists_visited_renamed h ht
  rw [nameAt_eq hu, nameAt_eq ht, name?_of_nameless hsame hk hscope]

/-- Namespaces keep their names. -/
theorem latest_namespace_renamed (h : Renamed ts us) (i : Nat) :
    latest .namespaceDecl ((visitItems us).take i) =
      latest .namespaceDecl ((visitItems ts).take i) := by
  rw [latest_take, latest_take, lastBefore_renamed h]
  cases hlast : lastBefore .namespaceDecl (visitItems ts) i with
  | none => rfl
  | some j =>
    obtain ⟨t, ht, hk⟩ := lastBefore_isOf hlast
    exact nameAt_renamed h ht hk (by decide)

theorem valueAt_eq (h : ∀ t ∈ ts, t.laid = true) (ht : (visitItems ts)[i]? = some t)
    (hk : t.isOf [.magicConstant] = true) (hname : t.name? = some name)
    (hmem : name ∈ placeNames) :
    valueAt ts i = some (optionalText (placeName ((visitItems ts).take i) name)) := by
  obtain ⟨hnone, -⟩ | ⟨v, w, hv, hw, hsettles⟩ := (resolveAll_settles h).get i
  · cases hnone.symm.trans ht
  cases hv.symm.trans ht
  rw [valueAt, hw, Option.bind_some]
  cases hsettles with
  | place _ =>
    cases hname
    rfl
  | constant hother =>
    cases hname
    exact absurd hmem hother
  | other hother => exact absurd (by simpa [isOf] using hk) hother

/-- The value of a constant in renamed trees. -/
theorem valueAt_renamed (h : ∀ t ∈ ts, t.laid = true) (hus : Renamed ts us)
    (ht : (visitItems ts)[i]? = some t) (hk : t.isOf [.magicConstant] = true)
    (hname : t.name? = some name) (hmem : name ∈ placeNames) :
    valueAt us i = some (optionalText (placeName ((visitItems us).take i) name)) := by
  obtain ⟨u, hu, hsame⟩ := exists_visited_renamed hus ht
  have hku : u.isOf [.magicConstant] = true := by rwa [← isOf_nameless, ← hsame, isOf_nameless]
  have hnameu : u.name? = some name := by rw [← name?_of_nameless hsame hk (by decide), hname]
  exact valueAt_eq (hus.laid h) hu hku hnameu hmem

theorem placeName_congr (hname : name ∈ scopeNames)
    (hns : latest .namespaceDecl ms = latest .namespaceDecl ns)
    (hshown : ∀ k ∈ shownKinds name, latest k ms = latest k ns) :
    placeName ms name = placeName ns name := by
  simp only [scopeNames, List.mem_cons, List.not_mem_nil, or_false] at hname
  obtain rfl | rfl | rfl := hname <;>
    simp_all [shownKinds, placeName]

/-- What is put before a name does not depend on it. -/
theorem length_qualified (outer : Option String) (mark : String) :
    ∃ d, ∀ n : Option String,
      ((qualified outer mark n).getD "None").length = d + (n.getD "None").length := by
  unfold qualified
  split
  case h_1 => exact ⟨0, fun n => by simp⟩
  case h_2 => exact ⟨0, fun n => by simp⟩
  case h_3 s _ => exact ⟨s.length + mark.length, fun n => by simp⟩

theorem length_qualified_le (s mark : String) (n : Option String) :
    ((qualified (some s) mark n).getD "None").length ≤
      s.length + mark.length + (n.getD "None").length := by
  unfold qualified
  split
  · omega
  · omega
  · rename_i hs
    cases hs
    simp

/-- A longer outer name makes a longer name. -/
theorem length_qualified_outer (s mark : String) (n : Option String) :
    ((qualified (some s) mark n).getD "None").length <
      ((qualified (some (s ++ "_")) mark n).getD "None").length := by
  have hle := length_qualified_le s mark n
  have hne : s ++ "_" ≠ "" := by simp
  have hnew : qualified (some (s ++ "_")) mark n = some (s ++ "_" ++ mark ++ n.getD "None") := by
    unfold qualified
    split <;> simp_all
  rw [hnew, Option.getD_some, String.length_append, String.length_append, String.length_append]
  have hmark : "_".length = 1 := rfl
  omega

/-- A constant shows every declaration that it names. -/
theorem placeName_longer (hname : name ∈ scopeNames) (hk : k ∈ shownKinds name)
    (hold : latest k ns = some s) (hnew : latest k ms = some (s ++ "_"))
    (hother : ∀ k', k' ≠ k → latest k' ms = latest k' ns) :
    ((placeName ns name).getD "None").length < ((placeName ms name).getD "None").length := by
  have hmark : ((some s).getD "None").length < ((some (s ++ "_")).getD "None").length := by
    simp only [Option.getD_some, String.length_append]
    exact Nat.lt_add_of_pos_right (by decide)
  obtain ⟨d, hd⟩ := length_qualified (latest .namespaceDecl ns) "\\"
  simp only [scopeNames, List.mem_cons, List.not_mem_nil, or_false] at hname
  obtain rfl | rfl | rfl := hname
  · obtain rfl : k = .classDecl := by simpa [shownKinds] using hk
    rw [placeName, placeName, hother .namespaceDecl (by decide), hd, hd, hold, hnew]
    omega
  · obtain rfl : k = .function := by simpa [shownKinds] using hk
    rw [placeName, placeName, hother .namespaceDecl (by decide), hd, hd, hold, hnew]
    omega
  · obtain rfl | rfl : k = .classDecl ∨ k = .method := by simpa [shownKinds] using hk
    · have houter := length_qualified_outer s "::" (latest .method ns)
      rw [placeName, placeName, hother .namespaceDecl (by decide), hother .method (by decide), hd,
        hd, hold, hnew]
      omega
    · obtain ⟨e, he⟩ := length_qualified (latest .classDecl ns) "::"
      rw [placeName, placeName, hother .namespaceDecl (by decide), hother .classDecl (by decide),
        hd, hd, he, he, hold, hnew]
      omega

theorem shownKinds_subset (name : String) : shownKinds name ⊆ scopeKinds := by
  unfold shownKinds
  split <;> decide

/-- The names of nodes of which one has got another name. -/
theorem nameAt_renamedAt (h : RenamedAt s j (visitItems ts) (visitItems us))
    (hj : j < (visitItems ts).length) (m : Nat) :
    nameAt us m = if m = j then some s else nameAt ts m := by
  have hjoin (ns : List Tree) : nameAt ns m = ((visitItems ns).map name?)[m]?.join := by
    rw [nameAt, List.getElem?_map]
    cases (visitItems ns)[m]? <;> rfl
  rw [hjoin us, h, List.getElem?_set]
  split
  case isTrue hm =>
    subst hm
    simp [hj]
  case isFalse hm => rw [if_neg (Ne.symm hm), hjoin ts]

theorem exists_nameAt (h : ∀ t ∈ ts, t.laid = true) (ht : (visitItems ts)[j]? = some t)
    (hk : t.isOf [k] = true) (hscope : k ∈ scopeKinds) : ∃ s, nameAt ts j = some s := by
  obtain ⟨line, fs, rfl⟩ := isOf_singleton hk
  have hmem := (visitItems_sublist ts).subset (List.mem_of_getElem? ht)
  have hlaid := everyNodeIn_nodes ts (everyNodeIn_iff.mpr h) _ hmem
  obtain ⟨s, rest, rfl⟩ := layout_scope (laid_node.mp hlaid).1 hscope
  exact ⟨s, by rw [nameAt_eq ht, name?_scope hscope]⟩

/-- If the declarations that a constant names keep their names, it keeps its value. -/
theorem valueAt_of_names (h : ∀ t ∈ ts, t.laid = true) (hus : Renamed ts us)
    (ht : (visitItems ts)[i]? = some t) (hk : t.isOf [.magicConstant] = true)
    (hname : t.name? = some name) (hmem : name ∈ scopeNames)
    (hkept : ∀ k ∈ shownKinds name, ∀ j, lastBefore k (visitItems ts) i = some j →
      nameAt us j = nameAt ts j) : valueAt us i = valueAt ts i := by
  have hplace : name ∈ placeNames := List.mem_cons_of_mem _ hmem
  rw [valueAt_renamed h hus ht hk hname hplace, valueAt_eq h ht hk hname hplace,
    placeName_congr hmem (latest_namespace_renamed hus i)]
  intro k hshown
  rw [latest_take, latest_take, lastBefore_renamed hus]
  cases hlast : lastBefore k (visitItems ts) i with
  | none => rfl
  | some j => exact hkept k hshown j hlast

/-- A constant gets another value if a declaration that it names does. -/
theorem exists_renamed_valueAt (h : ∀ t ∈ ts, t.laid = true) (ht : (visitItems ts)[i]? = some t)
    (hk : t.isOf [.magicConstant] = true) (hname : t.name? = some name)
    (hmem : name ∈ scopeNames) (hshown : k ∈ shownKinds name)
    (hlast : lastBefore k (visitItems ts) i = some j) :
    ∃ us, Renamed ts us ∧ (∀ m, m ≠ j → nameAt us m = nameAt ts m) ∧
      valueAt us i ≠ valueAt ts i := by
  have hplace : name ∈ placeNames := List.mem_cons_of_mem _ hmem
  have hscope := shownKinds_subset name hshown
  obtain ⟨v, hv, hkv⟩ := lastBefore_isOf hlast
  obtain ⟨s, hs⟩ := exists_nameAt h hv hkv hscope
  obtain ⟨line, fs, rfl⟩ := isOf_singleton hkv
  obtain ⟨us, hus, hat⟩ := exists_renamedItems (s ++ "_") j ts h hv (by simpa [isOf] using hscope)
  have hnames := nameAt_renamedAt hat (List.getElem?_eq_some_iff.mp hv).1
  refine ⟨us, hus, fun m hm => by rw [hnames, if_neg hm], fun heq => ?_⟩
  have hother (k' : Kind) (hk' : k' ≠ k) : latest k' ((visitItems us).take i) =
      latest k' ((visitItems ts).take i) := by
    rw [latest_take, latest_take, lastBefore_renamed hus]
    cases hlast' : lastBefore k' (visitItems ts) i with
    | none => rfl
    | some m =>
      -- The node that has got another name is of one kind only.
      obtain ⟨w, hw, hkw⟩ := lastBefore_isOf hlast'
      have hm : m ≠ j := by
        rintro rfl
        cases hv.symm.trans hw
        exact hk'.symm (by simpa [isOf] using hkw)
      rw [Option.bind_some, Option.bind_some, hnames, if_neg hm]
  have hlonger := placeName_longer hmem hshown (by rw [latest_take, hlast, Option.bind_some, hs])
    (by rw [latest_take, lastBefore_renamed hus, hlast, Option.bind_some, hnames, if_pos rfl])
    hother
  rw [valueAt_renamed h hus ht hk hname hplace, valueAt_eq h ht hk hname hplace] at heq
  have hshows := congrArg display (Option.some.inj heq)
  rw [display_optionalText, display_optionalText] at hshows
  exact Nat.lt_irrefl _ (hshows ▸ hlonger)

end Tree

/-- A constant of a source that names a class, a function or a method has the same value whatever
the names of the declarations that are not around it, if and only if the declarations that were
visited last before it and that it names are around it. -/
theorem parse_scoped {ts : List Tree} {t : Tree} {name : String} {i : Nat}
    (h : f.parse file text = (.ok ts, g)) (ht : (Tree.visitItems ts)[i]? = some t)
    (hk : t.isOf [.magicConstant] = true) (hname : t.name? = some name)
    (hmem : name ∈ Tree.scopeNames) :
    (∀ us, Tree.Renamed ts us →
        (∀ j, Tree.Encloses ts j i → Tree.nameAt us j = Tree.nameAt ts j) →
          Tree.valueAt us i = Tree.valueAt ts i) ↔
      ∀ k ∈ Tree.shownKinds name, ∀ j, Tree.lastBefore k (Tree.visitItems ts) i = some j →
        Tree.Encloses ts j i := by
  have hlaid : ∀ t ∈ ts, t.laid = true := fun t ht => (parse_laid h t ht).1
  constructor
  · intro hsame k hshown j hlast
    by_contra hout
    obtain ⟨us, hus, hothers, hne⟩ :=
      Tree.exists_renamed_valueAt hlaid ht hk hname hmem hshown hlast
    refine hne (hsame us hus fun m hm => hothers m ?_)
    rintro rfl
    exact hout hm
  · intro haround us hus hkept
    exact Tree.valueAt_of_names hlaid hus ht hk hname hmem fun k hshown j hlast =>
      hkept j (haround k hshown j hlast)

/-- The other class comes before the constant too. -/
theorem parse_scoped_method :
    ∃ ts g, (Filter.fresh []).parse none
        "<?php class B \x7b\x7d class A \x7b function f() \x7breturn __METHOD__;\x7d \x7d".toList =
          (.ok ts, g) ∧
      ∀ us, Tree.Renamed ts us →
        (∀ j, Tree.Encloses ts j 4 → Tree.nameAt us j = Tree.nameAt ts j) →
          Tree.valueAt us 4 = Tree.valueAt ts 4 := by
  obtain ⟨ts, g, h, hp⟩ := exists_parse_any (Filter.fresh []) none
    "<?php class B \x7b\x7d class A \x7b function f() \x7breturn __METHOD__;\x7d \x7d".toList
    (p := fun ts => (Tree.visitItems ts)[4]?.any (fun t : Tree =>
        t.isOf [.magicConstant] && t.name? == some "__METHOD__") &&
      (Tree.shownKinds "__METHOD__").all fun k =>
        (Tree.lastBefore k (Tree.visitItems ts) 4).all fun j => Tree.Encloses ts j 4)
    (by rw [String.toList_ofList]; decide +kernel)
  obtain ⟨hany, haround⟩ := Bool.and_eq_true_iff.mp hp
  obtain ⟨t, ht, htest⟩ := Option.any_eq_true _ _ |>.mp hany
  obtain ⟨hk, hname⟩ := Bool.and_eq_true_iff.mp htest
  refine ⟨ts, g, h, (parse_scoped h ht hk (beq_iff_eq.mp hname) (by decide)).mpr ?_⟩
  intro k hshown j hlast
  have hj := List.all_eq_true.mp haround k hshown
  rw [hlast] at hj
  exact of_decide_eq_true hj

/-- The name of the empty class before a constant that names a class, if this is all there is. -/
def Tree.classBefore? : List Tree → Option String
  | [.node .classDecl (some 1) [.text s, .null, .null, .list [], .list []],
      .node .echo (some 1) [.list [.node .magicConstant (some 1) [.text "__CLASS__", .null]]]] =>
    some s
  | _ => none

theorem Tree.classBefore?_eq {ts : List Tree} {s : String} (h : classBefore? ts = some s) :
    ts = [.node .classDecl (some 1) [.text s, .null, .null, .list [], .list []],
      .node .echo (some 1)
        [.list [.node .magicConstant (some 1) [.text "__CLASS__", .null]]]] := by
  unfold classBefore? at h
  split at h
  · cases h
    rfl
  · cases h

/-- A constant outside of every class names the class that comes before it. -/
theorem not_scoped :
    ∃ ts us g g',
      (Filter.fresh []).parse none "<?php class A \x7b\x7d echo __CLASS__;".toList = (.ok ts, g) ∧
      (Filter.fresh []).parse none "<?php class B \x7b\x7d echo __CLASS__;".toList = (.ok us, g') ∧
      Tree.Renamed ts us ∧ (∀ j, Tree.Encloses ts j 2 → Tree.nameAt us j = Tree.nameAt ts j) ∧
      Tree.valueAt ts 2 = some (.text "A") ∧ Tree.valueAt us 2 = some (.text "B") := by
  obtain ⟨ts, g, hts, hA⟩ := exists_parse_any (Filter.fresh []) none
    "<?php class A \x7b\x7d echo __CLASS__;".toList
    (p := fun ts => Tree.classBefore? ts == some "A") (by rw [String.toList_ofList]; decide +kernel)
  obtain ⟨us, g', hus, hB⟩ := exists_parse_any (Filter.fresh []) none
    "<?php class B \x7b\x7d echo __CLASS__;".toList
    (p := fun ts => Tree.classBefore? ts == some "B") (by rw [String.toList_ofList]; decide +kernel)
  obtain rfl := Tree.classBefore?_eq (beq_iff_eq.mp hA)
  obtain rfl := Tree.classBefore?_eq (beq_iff_eq.mp hB)
  refine ⟨_, _, g, g', hts, hus, rfl, fun j hj => ?_, rfl, rfl⟩
  obtain ⟨hlt, t, ht, hlength⟩ := Tree.encloses_iff.mp hj
  match j with
  | 0 =>
    cases ht
    exact absurd hlength (by decide)
  | 1 => rfl

end Docblock
