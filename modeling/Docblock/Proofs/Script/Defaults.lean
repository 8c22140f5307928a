import Docblock.Proofs.Docs.Session
import Docblock.Proofs.Script.Loops
import Docblock.Proofs.Source
import Docblock.Proofs.Tree.Comments

/-! Default values of parameters: a script keeps them for the last parameters, so each stays with
its own parameter just if no parameter without one comes behind it. -/
namespace Docblock

namespace Script

/-- The default value of the parameter at a place. Default values belong to the last parameters. -/
def defaultAt (count : Nat) (defaults : List Script) (i : Nat) : Option Script :=
  if count ≤ i + defaults.length then defaults[i + defaults.length - count]? else none

theorem defaultAt_add (m n i : Nat) (ds : List Script) :
    defaultAt (m + n) ds (m + i) = defaultAt n ds i := by
  have hle : m + n ≤ m + i + ds.length ↔ n ≤ i + ds.length := by omega
  have hsub : m + i + ds.length - (m + n) = i + ds.length - n := by omega
  simp only [defaultAt, hle, hsub]

theorem isSome_defaultAt {n i : Nat} {ds : List Script} (hi : i < n) :
    (defaultAt n ds i).isSome ↔ n ≤ i + ds.length := by
  rw [defaultAt]
  split
  · rename_i h
    simp only [h, iff_true, Option.isSome_iff_exists, List.getElem?_eq_some_iff]
    exact ⟨_, by omega, rfl⟩
  · rename_i h
    simp [h]

/-- Values behind all the places without one. -/
theorem eq_replicate_append {xs : List (Option Script)}
    (h : xs.Pairwise fun a b => a.isSome → b.isSome) :
    ∃ n, xs = List.replicate n none ++ (xs.filterMap id).map some := by
  induction xs with
  | nil => exact ⟨0, rfl⟩
  | cons x xs ih =>
    obtain ⟨hx, hxs⟩ := List.pairwise_cons.mp h
    obtain ⟨n, hn⟩ := ih hxs
    cases x with
    | none =>
      refine ⟨n + 1, ?_⟩
      rw [List.filterMap_cons_none rfl, List.replicate_succ, List.cons_append, ← hn]
    | some s =>
      -- All places behind a value have one, so none is left out.
      have hzero : n = 0 := by
        cases n with
        | zero => rfl
        | succ n =>
          have hnone : none ∈ xs := by
            rw [hn, List.replicate_succ]
            exact List.mem_cons_self
          exact absurd (hx none hnone rfl) (by simp)
      subst hzero
      refine ⟨0, ?_⟩
      rw [List.filterMap_cons_some (f := id) rfl, List.map_cons]
      exact congrArg (some s :: ·) hn

/-- Values that are told their places from the end are at the places they came from just if there
is none without a value behind them. -/
theorem defaultAt_iff (xs : List (Option Script)) :
    (∀ i x, xs[i]? = some x → defaultAt xs.length (xs.filterMap id) i = x) ↔
      xs.Pairwise fun a b => a.isSome → b.isSome := by
  constructor
  · intro h
    rw [List.pairwise_iff_getElem]
    intro i j hi hj hij hsome
    rw [← h i xs[i] (List.getElem?_eq_getElem hi), isSome_defaultAt hi] at hsome
    rw [← h j xs[j] (List.getElem?_eq_getElem hj), isSome_defaultAt hj]
    omega
  · intro h i x hx
    obtain ⟨n, hn⟩ := eq_replicate_append h
    generalize xs.filterMap id = ds at hn
    subst hn
    have hlt : i < n + ds.length := by
      simpa using (List.getElem?_eq_some_iff.mp hx).1
    simp only [defaultAt, List.length_append, List.length_replicate, List.length_map]
    by_cases hi : i < n
    · rw [List.getElem?_append_left (by simpa using hi), List.getElem?_replicate, if_pos hi] at hx
      rw [if_neg (by omega)]
      exact Option.some.inj hx
    · rw [List.getElem?_append_right (by simpa using hi), List.length_replicate] at hx
      rw [if_pos (by omega), show i + ds.length - (n + ds.length) = i - n by omega]
      rw [List.getElem?_map] at hx
      obtain ⟨s, hs, rfl⟩ := Option.map_eq_some_iff.mp hx
      exact hs

end Script

namespace Tree

/-- The parameters of a function or a method. -/
def parameters : Tree → List Tree
  | .node .function _ [_, .list ps, _, _] | .node .method _ [_, _, .list ps, _, _] => ps
  | _ => []

/-- The default value of a parameter, if it has one. -/
def default? : Tree → Option Tree
  | .node .formalParameter _ [_, .null, _, _] => none
  | .node .formalParameter _ [_, value, _, _] => some value
  | _ => none

/-- The name of a parameter without its sign. -/
def argument : Tree → Tree
  | .node .formalParameter _ (.text name :: _) => .text (String.ofList (name.toList.drop 1))
  | t => t

/-- What a script passes to a method before its parameters. -/
def receiver : Tree → List Tree
  | .node .method _ [_, modifiers, _, _, _] =>
    match modifiers.includes "static" with
    | .ok true => [.text "cls"]
    | _ => [.text "self"]
  | _ => []

end Tree

namespace Conversion

open Docblock.Tree

variable {line : Option Int} {ps : List Tree}

/-- A place for the default value of a parameter holds the script of that value, or nothing if the
parameter has none. -/
def HoldsDefault (p : Tree) (slot : Option Script) : Prop :=
  Option.Rel (fun value s => convert value = .ok s) p.default? slot

theorem HoldsDefault.unique {p : Tree} {d d' : Option Script} (h : HoldsDefault p d)
    (h' : HoldsDefault p d') : d = d' := by
  unfold HoldsDefault at h h'
  generalize p.default? = value at h h'
  cases h with
  | none =>
    cases h'
    rfl
  | some hs =>
    cases h' with
    | some hs' => rw [Except.ok.inj (hs.symm.trans hs')]

theorem HoldsDefault.isSome {p : Tree} {d : Option Script} (h : HoldsDefault p d) :
    p.default?.isSome = d.isSome := by
  unfold HoldsDefault at h
  generalize p.default? = value at h
  cases h <;> rfl

theorem parameter_ok {p : Tree} (hp : p.isOf [.formalParameter] = true) (hs : p.shaped = true)
    {r : Tree × Option Script} (h : parameter (part p) = .ok r) :
    r.1 = p.argument ∧ HoldsDefault p r.2 := by
  obtain ⟨line, fs, rfl⟩ := isOf_singleton hp
  obtain ⟨name, value, isRef, type, rfl, -⟩ := fields_of_shape (shaped_node.mp hs).1
  have hvalue : parameter
      (part (.node .formalParameter line [.text name, value, .bool isRef, type])) =
      if (part value).isNull then .ok (argument (.node .formalParameter line [.text name]), none)
      else convert value >>= fun s =>
        .ok (argument (.node .formalParameter line [.text name]), some s) := rfl
  rw [hvalue, Part.isNull, part_tree] at h
  cases value with
  | null =>
    cases h
    exact ⟨rfl, .none⟩
  | bool | int | float | text | list | node =>
    obtain ⟨s, hs, h⟩ := ok_of_bind h
    cases h
    exact ⟨rfl, .some hs⟩

/-- The default values of some parameters, without the places of those that have none. -/
theorem parameters_ok (hp : ∀ p ∈ ps, p.isOf [.formalParameter] = true ∧ p.shaped = true)
    {names : List Tree} {defaults : List Script}
    (h : Conversion.parameters (part (.list ps)) = .ok (names, defaults)) :
    names = ps.map argument ∧
      ∃ ds : List (Option Script), defaults = ds.filterMap id ∧
        List.Forall₂ HoldsDefault ps ds := by
  obtain ⟨items, hitems, hmap⟩ := ok_of_bind h
  obtain rfl : partAll ps = items := Except.ok.inj hitems
  obtain ⟨rs, hrs, hpair⟩ := ok_of_bind hmap
  cases hpair
  rw [partAll_eq_map, List.mapM_map] at hrs
  have hall : List.Forall₂ (fun p r => r.1 = p.argument ∧ HoldsDefault p r.2) ps rs := by
    have hrel := List.forall₂_eq_eq_eq (α := Except Error _) ▸ map_eq_of_mapM hrs
    rw [List.forall₂_map_left_iff, List.forall₂_map_right_iff] at hrel
    exact ((List.forall₂_and_left _ _).mpr ⟨hp, hrel⟩).imp fun p r h => parameter_ok h.1.1 h.1.2 h.2
  refine ⟨?_, rs.map (·.2), ?_, ?_⟩
  · rw [← List.forall₂_eq_eq_eq, List.forall₂_map_left_iff, List.forall₂_map_right_iff]
    exact hall.flip.imp fun r p h => h.1
  · rw [List.filterMap_map]
    rfl
  · rw [List.forall₂_map_right_iff]
    exact hall.imp fun p r h => h.2

/-- Each place holds the default value of its own parameter just if no parameter without a default
value comes behind one with a default value. -/
theorem holdsDefault_iff {ds : List (Option Script)} (h : List.Forall₂ HoldsDefault ps ds)
    (m : Nat) :
    (∀ i p, ps[i]? = some p →
      HoldsDefault p (Script.defaultAt (m + ps.length) (ds.filterMap id) (m + i))) ↔
    ps.Pairwise fun p q => p.default?.isSome → q.default?.isSome := by
  have hslots : (∀ i p, ps[i]? = some p →
      HoldsDefault p (Script.defaultAt (m + ps.length) (ds.filterMap id) (m + i))) ↔
      ∀ i d, ds[i]? = some d → Script.defaultAt ds.length (ds.filterMap id) i = d := by
    simp only [Script.defaultAt_add, h.length_eq]
    constructor
    · intro hp i d hd
      obtain ⟨hi, rfl⟩ := List.getElem?_eq_some_iff.mp hd
      have hi' : i < ps.length := h.length_eq ▸ hi
      exact (hp i ps[i] (List.getElem?_eq_getElem hi')).unique (h.get hi' hi)
    · intro hd i p hp
      obtain ⟨hi, rfl⟩ := List.getElem?_eq_some_iff.mp hp
      have hi' : i < ds.length := h.length_eq ▸ hi
      rw [hd i ds[i] (List.getElem?_eq_getElem hi')]
      exact h.get hi hi'
  have hsome : ps.map (·.default?.isSome) = ds.map Option.isSome := by
    rw [← List.forall₂_eq_eq_eq, List.forall₂_map_left_iff, List.forall₂_map_right_iff]
    exact h.imp fun p d => HoldsDefault.isSome
  rw [hslots, Script.defaultAt_iff,
    ← List.pairwise_map (f := Option.isSome) (R := fun a b : Bool => a = true → b = true), ← hsome,
    List.pairwise_map]

/-- A function of a script has what it is passed first, then the names of the parameters, and the
default values of the parameters that have one. -/
theorem function_ok (hp : ∀ p ∈ ps, p.isOf [.formalParameter] = true ∧ p.shaped = true)
    {name : Tree} {first : List Tree} {nodes : Part} {classMethod : Bool} {s : Script}
    (h : function line name first (part (.list ps)) nodes classMethod = .ok s) :
    ∃ ds : List (Option Script), List.Forall₂ HoldsDefault ps ds ∧
      ∃ body, s = .functionDef line name (first ++ ps.map argument) (ds.filterMap id) body
        classMethod := by
  obtain ⟨⟨names, defaults⟩, hparams, h⟩ := ok_of_bind h
  obtain ⟨body, -, h⟩ := ok_of_bind h
  obtain ⟨rfl, ds, rfl, hds⟩ := parameters_ok hp hparams
  cases h
  exact ⟨ds, hds, _, rfl⟩

theorem convert_function {t : Tree} (ht : t.isOf [.function, .method] = true)
    (hshape : t.shaped = true) {s : Script} (h : convert t = .ok s) :
    ∃ ds : List (Option Script), List.Forall₂ HoldsDefault t.parameters ds ∧
      ∃ line name body classMethod, s = .functionDef line name
        (t.receiver ++ t.parameters.map argument) (ds.filterMap id) body classMethod := by
  cases t with
  | node k line fs =>
    obtain ⟨hfields, hshaped⟩ := shaped_node.mp hshape
    have hparams : ∀ {ps : List Tree}, .list ps ∈ fs →
        (∀ p ∈ ps, p.isOf [.formalParameter] = true) →
        ∀ p ∈ ps, p.isOf [.formalParameter] = true ∧ p.shaped = true := fun hmem hall p hp =>
      ⟨hall p hp, shaped_list.mp (hshaped _ hmem) p hp⟩
    obtain rfl | rfl : k = .function ∨ k = .method := by simpa [isOf] using ht
    · obtain ⟨name, ps, body, isRef, rfl, hps⟩ := fields_of_shape hfields
      obtain ⟨ds, hds, body, rfl⟩ := function_ok (hparams (by simp) hps) h
      exact ⟨ds, hds, line, _, body, _, rfl⟩
    · obtain ⟨name, ms, ps, body, isRef, rfl, -, hps⟩ := fields_of_shape hfields
      obtain ⟨isStatic, hstatic, h⟩ := ok_of_bind h
      obtain ⟨ds, hds, body, rfl⟩ := function_ok (hparams (by simp) hps) h
      have hinc : (Tree.list ms).includes "static" = .ok isStatic := by
        rw [part_tree] at hstatic
        cases hstatic
        rfl
      refine ⟨ds, hds, line, .text name, body, isStatic, ?_⟩
      simp only [receiver, hinc]
      cases isStatic <;> rfl
  | null | bool | int | float | text | list => cases ht

end Conversion

open Conversion

/-- Every parameter of a function or a method of a source has the default value of its own in the
script, and none if it has none, just if no parameter without a default value comes behind one with
a default value. -/
theorem parse_defaults {f g : Filter} {file : Option String} {text : List Char} {ts : List Tree}
    (h : f.parse file text = (.ok ts, g)) {t : Tree} (ht : t ∈ Tree.nodesIn ts)
    (hk : t.isOf [.function, .method] = true) {s : Script} (hs : convert t = .ok s) :
    ∃ line name defaults body classMethod,
      s = .functionDef line name (t.receiver ++ t.parameters.map Tree.argument) defaults body
        classMethod ∧
      ((∀ i p, t.parameters[i]? = some p → HoldsDefault p
        (Script.defaultAt (t.receiver.length + t.parameters.length) defaults
          (t.receiver.length + i))) ↔
        t.parameters.Pairwise fun p q => p.default?.isSome → q.default?.isSome) := by
  have hshape : t.shaped = true :=
    Tree.everyNodeIn_nodes ts (Tree.everyNodeIn_iff.mpr (Docs.parse_shaped h)) t ht
  obtain ⟨ds, hds, line, name, body, classMethod, rfl⟩ := convert_function hk hshape hs
  exact ⟨line, name, _, body, classMethod, rfl, holdsDefault_iff hds _⟩

/-- The last parameter of a method takes the default value of the one before it. -/
theorem parse_defaults_method :
    ∃ ts g, (Filter.fresh []).parse none
        "<?php class A \x7b static function f($a, $b = 1, &$c) \x7b\x7d \x7d".toList = (.ok ts, g) ∧
      ∃ t ∈ Tree.nodesIn ts, t.receiver.length = 1 ∧ ∃ s, convert t = .ok s ∧
        ∃ line name defaults body classMethod,
          s = .functionDef line name (t.receiver ++ t.parameters.map Tree.argument) defaults body
            classMethod ∧
          ¬ ∀ i p, t.parameters[i]? = some p → HoldsDefault p
            (Script.defaultAt (t.receiver.length + t.parameters.length) defaults
              (t.receiver.length + i)) := by
  obtain ⟨ts, g, h, hany⟩ := exists_parse_any (Filter.fresh []) none
    "<?php class A \x7b static function f($a, $b = 1, &$c) \x7b\x7d \x7d".toList
    (p := fun ts => (Tree.nodesIn ts).any fun t => t.isOf [.function, .method] &&
      t.receiver.length == 1 && (convert t).toBool &&
      t.parameters.map (·.default?.isSome) == [false, true, false])
    (by rw [String.toList_ofList]; decide +kernel)
  obtain ⟨t, ht, hcheck⟩ := List.any_eq_true.mp hany
  simp only [Bool.and_eq_true, beq_iff_eq] at hcheck
  obtain ⟨⟨⟨hk, hreceiver⟩, hconvert⟩, hdefaults⟩ := hcheck
  cases hs : convert t with
  | error e => simp [hs, Except.toBool] at hconvert
  | ok s =>
    obtain ⟨line, name, defaults, body, classMethod, heq, hiff⟩ := parse_defaults h ht hk hs
    refine ⟨ts, g, h, t, ht, hreceiver, s, hs, line, name, defaults, body, classMethod, heq, ?_⟩
    rw [hiff, ← List.pairwise_map (f := fun p : Tree => p.default?.isSome)
      (R := fun a b : Bool => a = true → b = true), hdefaults]
    decide

end Docblock
