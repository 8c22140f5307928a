import Docblock.Proofs.Script.Loops
import Docblock.Proofs.Tree.Layout

/-! The conversion as calls that make further calls, some of them on new trees that are larger than
the tree they are made from. However deep a tree is, the calls on it come to an end. -/
namespace Docblock

namespace Tree

variable {ts : List Tree}

mutual
/-- The number of levels of a tree. -/
def depth : Tree → Nat
  | .list ts => depthAll ts + 1
  | .node _ _ fields => depthAll fields + 1
  | _ => 1

def depthAll : List Tree → Nat
  | [] => 0
  | t :: ts => max t.depth (depthAll ts)
end

theorem depth_pos (t : Tree) : 0 < t.depth := by
  cases t with
  | list | node => exact Nat.succ_pos _
  | null | bool | int | float | text => exact Nat.one_pos

theorem depthAll_pos (h : ts ≠ []) : 0 < depthAll ts := by
  obtain ⟨t, ts, rfl⟩ := List.exists_cons_of_ne_nil h
  exact Nat.lt_of_lt_of_le t.depth_pos (Nat.le_max_left _ _)

/-- The statements of a block, or the one statement that stands for a block. -/
def deblock : Tree → Tree
  | .node .block _ [nodes] => nodes
  | t => .list [t]

/-- The value, or no items if it counts as not set. -/
def orNothing (t : Tree) : Tree := if t.truthy then t else .list []

end Tree

namespace Conversion

open Docblock.Tree (depthAll depthAll_pos)

/-- One after the other: lists or texts. Numbers have a sum, which has no items whatever it is. -/
def joined : Tree → Tree → Except Error Tree
  | .list ts, .list us => .ok (.list (ts ++ us))
  | .text s, .text t => .ok (.text (s ++ t))
  | t, u => if Part.isNumber t && Part.isNumber u then .ok (.int 0) else .error (.access .wrongForm)

/-- The one test of a loop, which is always met if there is none. -/
def loopTest : Tree → Except Error Tree
  | .null => .ok (.int 1)
  | test => do
    if (← size test) ≠ 1 then .error (.unsupported .severalTests)
    else return (← test.items.mapError .access).headD (.int 1)

/-- A loop as a block: what comes before it, and a loop whose body ends with the step. -/
def plainLoop (line : Option Int) (start test count node : Tree) : Except Error Tree := do
  let condition ← loopTest test
  let body ← joined node.deblock count.orNothing
  match start.orNothing with
  | .list before =>
    return .node .block line
      [.list (before ++ [Tree.node .whileLoop line [condition, .node .block line [body]]])]
  | _ => .error (.access .wrongForm)

/-- A loop with its test at the end as an endless one that breaks off there. -/
def endlessLoop (line : Option Int) (node expr : Tree) : Except Error Tree :=
  match node.deblock with
  | .list body =>
    let exit := .node .ifElse line
      [.node .unaryOp line [.text "!", expr], .node .breakLoop line [.null], .list [], .null]
    .ok (.node .whileLoop line [.int 1, .node .block line [.list (body ++ [exit])]])
  | _ => .error (.access .wrongForm)

/-- The new tree that a call on a node goes on with, for the kinds of node that have one. -/
def recast? (kind : Tree.Kind) (line : Option Int) (fields : List Tree) :
    Option (Except Error Tree) :=
  match kind, fields with
  | .block, [nodes] =>
    some (.ok (.node .ifElse line [.int 1, .node .block line [nodes], .list [], .null]))
  | .empty, [expr] =>
    some (.ok (.node .unaryOp line
      [.text "!", .node .binaryOp line [.text "&&", .node .isSet line [.list [expr]], expr]]))
  | .assignOp, [op, left, right] => some do
    return .node .assignment line
      [left, .node .binaryOp line [← front op, left, right], .bool false]
  | .preIncDec, [op, expr] | .postIncDec, [op, expr] => some do
    return .node .assignment line
      [expr, .node .binaryOp line [← first op, expr, .int 1], .bool false]
  | .forLoop, [start, test, count, node] => some (plainLoop line start test count node)
  | .doWhile, [node, expr] => some (endlessLoop line node expr)
  | _, _ => none

/-- The constants or variables that a node of a class declares. -/
def members? (kind : Tree.Kind) (fields : List Tree) : Option Tree :=
  match kind, fields with
  | .classConstants, [nodes] | .classVariables, [_, nodes] => some nodes
  | _, _ => none

/-- What the name of a constant or a variable of a class is read as. -/
def memberName (line : Option Int) (member name : Tree) : Tree :=
  .node (if member.isOf [.classConstant] then .constant else .var) line [name]

/-- What the value of a constant or a variable of a class is read as. -/
def memberValue (line : Option Int) : Tree → Tree
  | .null => .node .constant line [.text "None"]
  | initial => initial

/-- One assignment in a class, by calls on its name and on its value. -/
def memberBy (call : Tree → Result) (line : Option Int) (nodes : Tree) : Result := do
  if (← size nodes) ≠ 1 then unsupported .severalAssignments
  else
    match ← nodes.items.mapError .access with
    | t :: _ =>
      let name ← (t.get "name").mapError .access
      let initial ← (t.get "initial").mapError .access
      let target ← call (memberName line t name)
      let value ← call (memberValue line initial)
      return .assign line target.store value
    | [] => unsupported .severalAssignments

mutual
/-- A tree as a part, with what the calls on it and on the trees inside it give. -/
def partBy (call : Tree → Result) : Tree → Part
  | .list ts => ⟨.list ts, call (.list ts), partByAll call ts⟩
  | .node kind line fields =>
    ⟨.node kind line fields, call (.node kind line fields), partByAll call fields⟩
  | t => ⟨t, call t, []⟩

def partByAll (call : Tree → Result) : List Tree → List Part
  | [] => []
  | t :: ts => partBy call t :: partByAll call ts
end

/-- One call, by the calls that it makes. -/
def step (call : Tree → Result) : Tree → Result
  | .null => .ok (.pass (some 0))
  | .text s => .ok (.str (some 0) (.text s))
  | .list ts => .ok (Part.fallback (some 0) (.list ts))
  | .node kind line fields =>
    match recast? kind line fields with
    | some t => t >>= call
    | none =>
      match members? kind fields with
      | some nodes => memberBy call line nodes
      | none => convertNode (.node kind line fields) kind line (partByAll call fields)
  | t => .ok (.num (some 0) t)

/-- Calls inside calls, `n` levels of them. Calls that are nested deeper give what is `given`. -/
def nested (given : Tree → Result) : Nat → Tree → Result
  | 0 => given
  | n + 1 => step (nested given n)

variable {given : Tree → Result} {t u : Tree} {ts : List Tree} {kind : Tree.Kind}
  {line : Option Int} {n m : Nat}

theorem deblock_part_tree (t : Tree) : (part t).deblock = part t.deblock := by
  unfold Tree.deblock
  split
  · rfl
  · rename_i hne
    unfold Part.deblock
    split
    · rename_i line fields nodes ht hp
      rw [part_tree] at ht
      subst ht
      simp [part, Part.parts, partAll_eq_map] at hp
      obtain ⟨u, rfl, rfl⟩ := hp
      exact absurd rfl (hne _ _)
    · rfl

theorem orNothing_part_tree (t : Tree) : (part t).orNothing = part t.orNothing := by
  simp only [Part.orNothing, Tree.orNothing, part_tree]
  split <;> rfl

theorem script_part (t : Tree) : (part t).script = convert t := rfl

theorem convert_list (ts : List Tree) :
    convert (.list ts) = .ok (Part.fallback (some 0) (.list ts)) := by
  simp only [convert, part, Part.ofList, Part.script, partAll_trees]

theorem append_part (t u : Tree) : (part t).append (part u) = (joined t u).map part := by
  cases t with
  | list ts =>
    cases u with
    | list us =>
      have hparts : partAll ts ++ partAll us = partAll (ts ++ us) := by
        simp only [partAll_eq_map, List.map_append]
      change Except.ok (Part.ofList (partAll ts ++ partAll us)) = .ok (Part.ofList _)
      rw [hparts]
    | null | bool | int | float | text | node => rfl
  | text s => cases u <;> rfl
  | null | bool | int | float | node => cases u <;> rfl

theorem items_part (t : Tree) :
    (part t).items = (t.items.mapError .access).map (List.map part) := by
  cases t with
  | list ts =>
    change Except.ok (partAll ts) = Except.ok (ts.map part)
    rw [partAll_eq_map]
  | text s =>
    change Except.ok (s.toList.map _) = Except.ok ((s.toList.map _).map part)
    rw [List.map_map]
    rfl
  | null | bool | int | float | node => rfl

theorem lookup_zip_map {α β : Type} (f : α → β) (name : String) (names : List String)
    (as : List α) : (names.zip (as.map f)).lookup name = ((names.zip as).lookup name).map f := by
  induction names generalizing as with
  | nil => rfl
  | cons n names ih =>
    cases as with
    | nil => rfl
    | cons a as =>
      simp only [List.map_cons, List.zip_cons_cons, List.lookup_cons]
      cases name == n
      · exact ih as
      · rfl

theorem field_part (t : Tree) (name : String) :
    (part t).field name = ((t.get name).mapError .access).map part := by
  cases t with
  | node kind line fields =>
    have hl := lookup_zip_map part name kind.fields fields
    simp only [Part.field, part, Part.tree, Part.parts, partAll_eq_map, hl, Tree.get, Tree.field?]
    cases (kind.fields.zip fields).lookup name <;> rfl
  | null | bool | int | float | text | list => rfl

/-- Calls nested `n` deep settle what a call on a tree gives: none nested deeper is asked for. -/
def Settles (n : Nat) (t : Tree) : Prop := ∀ given, nested given n t = convert t

theorem nested_succ (given : Tree → Result) (n : Nat) :
    nested given (n + 1) = nested (step given) n := by
  induction n with
  | zero => rfl
  | succ n ih => rw [nested, ih, nested]

theorem Settles.succ (h : Settles n t) : Settles (n + 1) t := by
  intro given
  rw [nested_succ]
  exact h (step given)

theorem Settles.mono (h : Settles n t) (hle : n ≤ m) : Settles m t := by
  induction hle with
  | refl => exact h
  | step _ ih => exact ih.succ

mutual
/-- The same for a tree and all trees inside it. -/
def Settled (n : Nat) : Tree → Prop
  | .list ts => Settles n (.list ts) ∧ SettledAll n ts
  | .node kind line fields => Settles n (.node kind line fields) ∧ SettledAll n fields
  | t => Settles n t

def SettledAll (n : Nat) : List Tree → Prop
  | [] => True
  | t :: ts => Settled n t ∧ SettledAll n ts
end

theorem Settled.settles (h : Settled n t) : Settles n t := by
  cases t with
  | list | node => exact h.1
  | null | bool | int | float | text => exact h

theorem settledAll_iff : SettledAll n ts ↔ ∀ t ∈ ts, Settled n t := by
  induction ts with
  | nil => simp [SettledAll]
  | cons t ts ih => simp [SettledAll, ih]

mutual
theorem Settled.mono {t : Tree} (h : Settled n t) (hle : n ≤ m) : Settled m t := by
  cases t with
  | list ts => exact ⟨h.1.mono hle, SettledAll.mono h.2 hle⟩
  | node kind line fields => exact ⟨h.1.mono hle, SettledAll.mono h.2 hle⟩
  | null | bool | int | float | text => exact Settles.mono h hle

theorem SettledAll.mono {ts : List Tree} (h : SettledAll n ts) (hle : n ≤ m) :
    SettledAll m ts := by
  cases ts with
  | nil => trivial
  | cons t ts => exact ⟨Settled.mono h.1 hle, SettledAll.mono h.2 hle⟩
end

mutual
/-- Where all calls are settled, the parts are those of the conversion. -/
theorem partBy_settled (given : Tree → Result) (t : Tree) (h : Settled n t) :
    partBy (nested given n) t = part t := by
  cases t with
  | list ts =>
    simp only [partBy, partByAll_settled given ts h.2, h.1 given, convert_list, part, Part.ofList,
      partAll_trees]
  | node kind line fields =>
    simp only [partBy, partByAll_settled given fields h.2, h.1 given]
    rfl
  | null | bool | int | float | text => exact congrArg (Part.mk _ · []) (h given)

theorem partByAll_settled (given : Tree → Result) (ts : List Tree) (h : SettledAll n ts) :
    partByAll (nested given n) ts = partAll ts := by
  cases ts with
  | nil => rfl
  | cons t ts => rw [partByAll, partAll, partBy_settled given t h.1, partByAll_settled given ts h.2]
end

/-- Values without trees inside them take no further call. -/
theorem settled_leaf (ht : t.isLeaf = true) (hn : 0 < n) : Settled n t := by
  obtain ⟨n, rfl⟩ := Nat.exists_eq_add_of_lt hn
  cases t with
  | null | bool | int | float | text => exact fun _ => rfl
  | list | node => cases ht

theorem settled_list (h : SettledAll n ts) (hn : 0 < n) : Settled n (.list ts) := by
  obtain ⟨n, rfl⟩ := Nat.exists_eq_add_of_lt hn
  exact ⟨fun given => (convert_list ts).symm, h⟩

/-- The kinds of node that are not converted from their parts alone. -/
def recastKinds : List Tree.Kind := [
  .block, .empty, .assignOp, .preIncDec, .postIncDec, .forLoop, .doWhile, .classConstants,
  .classVariables]

theorem step_plain (call : Tree → Result) (line : Option Int) (fields : List Tree)
    (hk : kind ∉ recastKinds) :
    step call (.node kind line fields) =
      convertNode (.node kind line fields) kind line (partByAll call fields) := by
  cases kind <;> first | rfl | exact absurd (by decide) hk

/-- A node is settled one level above what is inside it, if it is converted from its parts. -/
theorem settles_of_step {fields : List Tree} (h : SettledAll n fields)
    (hs : ∀ call, step call (.node kind line fields) =
      convertNode (.node kind line fields) kind line (partByAll call fields)) :
    Settles (n + 1) (.node kind line fields) := by
  intro given
  rw [nested, hs, partByAll_settled given fields h]
  rfl

theorem settled_plain {fields : List Tree} (hk : kind ∉ recastKinds) (h : SettledAll n fields) :
    Settled (n + 1) (.node kind line fields) :=
  ⟨settles_of_step h fun call => step_plain call line fields hk, h.mono (Nat.le_succ n)⟩

/-- A block is a conditional whose test is always met. Its statements are asked for, not the block
itself once more. -/
theorem ifElse_block (line : Option Int) (nodes : Tree) (a b c : Result) :
    ifElse line ⟨.int 1, .ok always, []⟩ ⟨.node .block line [nodes], a, [part nodes]⟩
      ⟨.list [], b, []⟩ ⟨.null, c, []⟩ = convert (.node .block line [nodes]) := rfl

theorem settled_block {nodes : Tree} (h : Settled n nodes) (hn : 0 < n) :
    Settled (n + 2) (.node .block line [nodes]) := by
  refine ⟨fun given => ?_, h.mono (by omega), trivial⟩
  have hone : nested given n (.int 1) = .ok always := (settled_leaf rfl hn).settles given
  have hnodes := partBy_settled given nodes h
  have hstep : nested given (n + 2) (.node .block line [nodes]) =
      ifElse line ⟨.int 1, nested given n (.int 1), []⟩
        ⟨.node .block line [nodes], nested given n (.node .block line [nodes]),
          [partBy (nested given n) nodes]⟩
        ⟨.list [], nested given n (.list []), []⟩ ⟨.null, nested given n .null, []⟩ := rfl
  rw [hstep, hone, hnodes, ifElse_block]

theorem convert_empty (line : Option Int) (expr : Tree) :
    convert (.node .unaryOp line
      [.text "!", .node .binaryOp line [.text "&&", .node .isSet line [.list [expr]], expr]]) =
    convert (.node .empty line [expr]) := by
  have hunary : ∀ r : Result,
      unary line (.text "!") r = r >>= fun s => pure (.unaryOp line .not s) :=
    fun _ => rfl
  have hbinary : ∀ l r : Part, binary line (.text "&&") l r =
      l.script >>= fun a => r.script >>= fun b => pure (.boolOp line .and a b) := fun _ _ => rfl
  change unary line (.text "!")
      (binary line (.text "&&") ⟨_, isSet line (part expr), _⟩ (part expr)) =
    isSet line (part expr) >>= fun set => (part expr).script >>= fun s =>
      pure (.unaryOp line .not (.boolOp line .and set s))
  rw [hunary, hbinary]
  cases isSet line (part expr) with
  | error => rfl
  | ok set => cases (part expr).script <;> rfl

theorem convert_assignOp (line : Option Int) (op left right : Tree) :
    (front op >>= fun op' => convert (.node .assignment line
      [left, .node .binaryOp line [op', left, right], .bool false])) =
    convert (.node .assignOp line [op, left, right]) := by
  change _ = (front (part op).tree >>= fun op' =>
    assignment line (part left) (binary line op' (part left) (part right)))
  rw [part_tree]
  refine bind_congr_ok fun op' _ => ?_
  change assignment line (part left) (binary line (part op').tree (part left) (part right)) = _
  rw [part_tree]

theorem convert_incDec (line : Option Int) (op expr : Tree)
    (hk : kind = .preIncDec ∨ kind = .postIncDec) :
    (first op >>= fun op' => convert (.node .assignment line
      [expr, .node .binaryOp line [op', expr, .int 1], .bool false])) =
    convert (.node kind line [op, expr]) := by
  have hconvert : convert (.node kind line [op, expr]) = first (part op).tree >>= fun op' =>
      assignment line (part expr) (binary line op' (part expr) (Part.ofInt 1)) := by
    obtain rfl | rfl := hk <;> rfl
  rw [hconvert, part_tree]
  refine bind_congr_ok fun op' _ => ?_
  change assignment line (part expr) (binary line (part op').tree (part expr) (part (.int 1))) = _
  rw [part_tree]
  rfl

theorem convert_whileLoop (line : Option Int) (test body : Tree) :
    convert (.node .whileLoop line [test, .node .block line [body]]) =
      convert test >>= fun c => (part body).statements >>= fun ss =>
        pure (.whileLoop line c ss) := rfl

theorem convert_blockList (line : Option Int) (ts : List Tree) :
    convert (.node .block line [.list ts]) =
      ts.mapM convert >>= fun ss => pure (block line (ss.map Script.toStmt)) := by
  change ((part (.list ts)).statements >>= fun ss => pure (block line ss)) = _
  rw [statements_part]
  cases ts.mapM convert <;> rfl

theorem scripts_part (ts : List Tree) : (part (.list ts)).scripts = ts.mapM convert := by
  have hscripts : (part (.list ts)).scripts = (partAll ts).mapM Part.script := rfl
  rw [hscripts, partAll_eq_map, List.mapM_map]
  rfl

/-- What a loop becomes once its test and its body are known. -/
def loopBlock (line : Option Int) (start : Part) (condition : Result) (body : Part) : Result :=
  match start.tree with
  | .list _ => do
    let before ← start.scripts
    let condition ← condition
    let body ← body.statements
    return block line (before.map Script.toStmt ++ [Script.whileLoop line condition body])
  | _ => .error (.access .wrongForm)

theorem forLoop_endless (line : Option Int) (start count node : Part) :
    forLoop line start (part .null) count node = node.deblock.append count.orNothing >>= fun body =>
      loopBlock line start.orNothing (.ok always) body := rfl

theorem forLoop_single {test t : Part} (line : Option Int) (start count node : Part)
    (hnull : test.isNull = false) (hsize : size test.tree = .ok 1) (hitems : test.items = .ok [t]) :
    forLoop line start test count node = node.deblock.append count.orNothing >>= fun body =>
      loopBlock line start.orNothing t.script body := by
  unfold forLoop
  rw [hnull, hsize, hitems]
  rfl

theorem forLoop_several {test : Part} {k : Nat} (line : Option Int) (start count node : Part)
    (hnull : test.isNull = false) (hsize : size test.tree = .ok k) (hk : k ≠ 1) :
    forLoop line start test count node = .error (.unsupported .severalTests) := by
  have hne : (k == 1) = false := by simpa using hk
  unfold forLoop
  rw [hnull, hsize]
  change (if (!(k == 1)) = true then _ else _) = _
  rw [hne]
  rfl

theorem forLoop_part (line : Option Int) (start test count node : Tree) :
    forLoop line (part start) (part test) (part count) (part node) =
      loopTest test >>= fun c => joined node.deblock count.orNothing >>= fun body =>
        loopBlock line (part start.orNothing) (convert c) (part body) := by
  have hrest : ∀ c : Tree, ((part node).deblock.append (part count).orNothing >>= fun body =>
      loopBlock line (part start).orNothing (convert c) body) =
      joined node.deblock count.orNothing >>= fun body =>
        loopBlock line (part start.orNothing) (convert c) (part body) := by
    intro c
    rw [deblock_part_tree, orNothing_part_tree, orNothing_part_tree, append_part]
    cases joined node.deblock count.orNothing <;> rfl
  cases test with
  | null => exact (forLoop_endless line _ _ _).trans (hrest (.int 1))
  | bool | int | float | node => rfl
  | text s =>
    have hsize : size (part (.text s)).tree = .ok s.length := rfl
    by_cases hs : s.length = 1
    · obtain ⟨c, hc⟩ := List.length_eq_one_iff.mp (s.length_toList.trans hs)
      have hitems : (part (.text s)).items = .ok [part (.text (String.singleton c))] := by
        rw [items_part]
        change Except.ok ((s.toList.map _).map part) = _
        rw [hc]
        rfl
      have htest : loopTest (.text s) = .ok (.text (String.singleton c)) := by
        change (if s.length ≠ 1 then _ else Except.ok ((s.toList.map _).headD (Tree.int 1))) = _
        rw [if_neg (not_not_intro hs), hc]
        rfl
      rw [forLoop_single line _ _ _ rfl (hsize.trans (by rw [hs])) hitems, htest]
      exact hrest (.text (String.singleton c))
    · have htest : loopTest (.text s) = .error (.unsupported .severalTests) := if_pos hs
      rw [forLoop_several line _ _ _ rfl hsize hs, htest]
      rfl
  | list ts =>
    rcases ts with _ | ⟨t, _ | ⟨u, ts⟩⟩
    · rfl
    · exact (forLoop_single line _ _ _ rfl rfl rfl).trans (hrest t)
    · exact forLoop_several line _ _ _ rfl (by rw [part_tree]; rfl) (by simp)

/-- The statements before a loop, and the loop. -/
theorem convert_loopBlock (line : Option Int) (before : List Tree) (test body : Tree) :
    convert (.node .block line
      [.list (before ++ [.node .whileLoop line [test, .node .block line [body]]])]) =
    loopBlock line (part (.list before)) (convert test) (part body) := by
  change _ = (part (.list before)).scripts >>= _
  rw [convert_blockList, scripts_part]
  simp only [List.mapM_append, List.mapM_cons, List.mapM_nil, convert_whileLoop, bind_assoc,
    pure_bind, List.map_append]
  rfl

theorem convert_forLoop (line : Option Int) (start test count node : Tree) :
    (plainLoop line start test count node >>= convert) =
      convert (.node .forLoop line [start, test, count, node]) := by
  change _ = forLoop line (part start) (part test) (part count) (part node)
  rw [forLoop_part, plainLoop, bind_assoc]
  refine bind_congr_ok fun c _ => ?_
  rw [bind_assoc]
  refine bind_congr_ok fun body _ => ?_
  cases start.orNothing with
  | list before => exact convert_loopBlock line before c body
  | null | bool | int | float | text | node => rfl

/-- The way out of a loop that has its test at the end. -/
theorem convert_exit (line : Option Int) (expr : Tree) :
    convert (.node .ifElse line
      [.node .unaryOp line [.text "!", expr], .node .breakLoop line [.null], .list [], .null]) =
    convert expr >>= fun test =>
      pure (.ifElse line (.unaryOp line .not test) [.breakLoop line] []) := by
  change ((convert expr >>= fun s => pure (Script.unaryOp line .not s)) >>= fun test =>
    pure (Script.ifElse line test [.breakLoop line] [])) = _
  rw [bind_assoc]
  rfl

theorem convert_doWhile (line : Option Int) (node expr : Tree) :
    (endlessLoop line node expr >>= convert) = convert (.node .doWhile line [node, expr]) := by
  change _ = doWhile line (part node) (part expr)
  rw [endlessLoop, doWhile, deblock_part_tree, part_tree]
  cases node.deblock with
  | list body =>
    change convert (.node .whileLoop line [.int 1, .node .block line [.list (body ++ [_])]]) =
      (part (.list body)).statements >>= _
    have hone : convert (.int 1) = pure always := rfl
    rw [convert_whileLoop, statements_part, statements_part, script_part, hone]
    simp only [List.mapM_append, List.mapM_cons, List.mapM_nil, convert_exit, map_bind, bind_assoc,
      pure_bind, List.map_append]
    rfl
  | null | bool | int | float | text | node => rfl

/-- What a node is recast into has the script of the node. -/
theorem convert_recast {fields : List Tree} {r : Except Error Tree}
    (h : recast? kind line fields = some r) :
    (r >>= convert) = convert (.node kind line fields) := by
  unfold recast? at h
  split at h
  · cases h
    rfl
  · cases h
    exact convert_empty _ _
  · cases h
    rw [← convert_assignOp]
    cases front _ <;> rfl
  · cases h
    rw [← convert_incDec line _ _ (Or.inl rfl)]
    cases first _ <;> rfl
  · cases h
    rw [← convert_incDec line _ _ (Or.inr rfl)]
    cases first _ <;> rfl
  · cases h
    exact convert_forLoop _ _ _ _ _
  · cases h
    exact convert_doWhile _ _ _
  · cases h

theorem settled_front {op op' : Tree} (h : Settled n op) (hn : 0 < n) (hf : front op = .ok op') :
    Settled n op' := by
  cases op with
  | text s =>
    cases hf
    exact settled_leaf rfl hn
  | list ts =>
    cases hf
    refine settled_list (settledAll_iff.mpr fun t ht => ?_) hn
    exact settledAll_iff.mp h.2 t ((List.dropLast_sublist ts).subset ht)
  | null | bool | int | float | node => cases hf

theorem settled_first {op op' : Tree} (h : Settled n op) (hn : 0 < n) (hf : first op = .ok op') :
    Settled n op' := by
  cases op with
  | text s =>
    simp only [first] at hf
    split at hf <;> cases hf
    exact settled_leaf rfl hn
  | list ts =>
    cases ts with
    | nil => cases hf
    | cons t ts =>
      cases hf
      exact h.2.1
  | null | bool | int | float | node => cases hf

theorem settled_deblock (h : Settled n t) (hn : 0 < n) : Settled n t.deblock := by
  unfold Tree.deblock
  split
  · exact h.2.1
  · exact settled_list ⟨h, trivial⟩ hn

theorem settled_orNothing (h : Settled n t) (hn : 0 < n) : Settled n t.orNothing := by
  unfold Tree.orNothing
  split
  · exact h
  · exact settled_list trivial hn

theorem settledAll_append {us : List Tree} (h : SettledAll n ts) (h' : SettledAll n us) :
    SettledAll n (ts ++ us) := by
  rw [settledAll_iff] at *
  exact List.forall_mem_append.mpr ⟨h, h'⟩

theorem settledAll_snoc (h : SettledAll n ts) (hle : n ≤ m) (hu : Settled m u) :
    SettledAll m (ts ++ [u]) :=
  settledAll_append (h.mono hle) ⟨hu, trivial⟩

theorem settled_joined {v : Tree} (ht : Settled n t) (hu : Settled n u) (hn : 0 < n)
    (h : joined t u = .ok v) : Settled n v := by
  unfold joined at h
  split at h
  · cases h
    exact settled_list (settledAll_append ht.2 hu.2) hn
  · cases h
    exact settled_leaf rfl hn
  · split at h <;> cases h
    exact settled_leaf rfl hn

theorem settled_items {us : List Tree} (h : Settled n t) (hn : 0 < n)
    (hi : t.items.mapError Error.access = .ok us) : SettledAll n us := by
  cases t with
  | list ts =>
    cases hi
    exact h.2
  | text s =>
    cases hi
    rw [settledAll_iff]
    intro u hu
    obtain ⟨c, -, rfl⟩ := List.mem_map.mp hu
    exact settled_leaf rfl hn
  | null | bool | int | float | node => cases hi

theorem settled_loopTest {c : Tree} (h : Settled n t) (hn : 0 < n) (hc : loopTest t = .ok c) :
    Settled n c := by
  unfold loopTest at hc
  split at hc
  · cases hc
    exact settled_leaf rfl hn
  · obtain ⟨k, -, hc⟩ := ok_of_bind hc
    split at hc
    · cases hc
    · obtain ⟨us, hus, hc⟩ := ok_of_bind hc
      cases hc
      have hall := settled_items h hn hus
      cases us with
      | nil => exact settled_leaf rfl hn
      | cons u us => exact hall.1

variable {expr op left right start test count node nodes : Tree}

theorem settled_notSet (h : Settled n expr) (hn : 0 < n) :
    Settled (n + 3) (.node .unaryOp line
      [.text "!", .node .binaryOp line [.text "&&", .node .isSet line [.list [expr]], expr]]) := by
  have hset : Settled (n + 1) (.node .isSet line [.list [expr]]) :=
    settled_plain (by decide) ⟨settled_list ⟨h, trivial⟩ hn, trivial⟩
  have hboth : Settled (n + 2)
      (.node .binaryOp line [.text "&&", .node .isSet line [.list [expr]], expr]) :=
    settled_plain (by decide) ⟨settled_leaf rfl n.succ_pos, hset, h.mono n.le_succ, trivial⟩
  exact settled_plain (by decide) ⟨settled_leaf rfl (by omega), hboth, trivial⟩

theorem settled_update (hop : Settled n op) (hl : Settled n left) (hr : Settled n right) :
    Settled (n + 2) (.node .assignment line
      [left, .node .binaryOp line [op, left, right], .bool false]) := by
  have hvalue : Settled (n + 1) (.node .binaryOp line [op, left, right]) :=
    settled_plain (by decide) ⟨hop, hl, hr, trivial⟩
  exact settled_plain (by decide)
    ⟨hl.mono n.le_succ, hvalue, settled_leaf rfl n.succ_pos, trivial⟩

theorem settled_plainLoop (hs : Settled n start) (ht : Settled n test) (hc : Settled n count)
    (hb : Settled n node) (hn : 0 < n) (h : plainLoop line start test count node = .ok u) :
    Settled (n + 5) u := by
  obtain ⟨c, hcond, h⟩ := ok_of_bind h
  obtain ⟨body, hbody, h⟩ := ok_of_bind h
  have hcond := settled_loopTest ht hn hcond
  have hbody := settled_joined (settled_deblock hb hn) (settled_orNothing hc hn) hn hbody
  have hstart := settled_orNothing hs hn
  have hloop : Settled (n + 3) (.node .whileLoop line [c, .node .block line [body]]) :=
    settled_plain (by decide) ⟨hcond.mono (by omega), settled_block hbody hn, trivial⟩
  split at h
  · rename_i before hbefore
    cases h
    rw [hbefore] at hstart
    have hitems := settledAll_snoc hstart.2 (by omega) hloop
    exact settled_block (settled_list hitems (by omega)) (by omega)
  · cases h

theorem settled_endlessLoop (hb : Settled n node) (he : Settled n expr) (hn : 0 < n)
    (h : endlessLoop line node expr = .ok u) : Settled (n + 5) u := by
  have hbody := settled_deblock hb hn
  have hnot : Settled (n + 1) (.node .unaryOp line [.text "!", expr]) :=
    settled_plain (by decide) ⟨settled_leaf rfl hn, he, trivial⟩
  have hbreak : Settled (n + 1) (.node .breakLoop line [.null]) :=
    settled_plain (by decide) ⟨settled_leaf rfl hn, trivial⟩
  have hexit : Settled (n + 2) (.node .ifElse line
      [.node .unaryOp line [.text "!", expr], .node .breakLoop line [.null], .list [], .null]) :=
    settled_plain (by decide)
      ⟨hnot, hbreak, settled_list trivial n.succ_pos, settled_leaf rfl n.succ_pos, trivial⟩
  unfold endlessLoop at h
  split at h
  · rename_i body hnode
    cases h
    rw [hnode] at hbody
    have hitems := settledAll_snoc hbody.2 (by omega) hexit
    exact settled_plain (by decide)
      ⟨settled_leaf rfl (by omega), settled_block (settled_list hitems (by omega)) (by omega),
        trivial⟩
  · cases h

/-- What a node is recast into is settled five levels above what is inside the node. -/
theorem settled_recast {fields : List Tree} (hk : kind ≠ .block) (h : SettledAll n fields)
    (hn : 0 < n) (hu : recast? kind line fields = some (.ok u)) : Settled (n + 5) u := by
  unfold recast? at hu
  split at hu
  · exact absurd rfl hk
  · cases hu
    exact (settled_notSet h.1 hn).mono (by omega)
  · obtain ⟨op', hop, hu⟩ := ok_of_bind (Option.some.inj hu)
    cases hu
    exact (settled_update (settled_front h.1 hn hop) h.2.1 h.2.2.1).mono (by omega)
  · obtain ⟨op', hop, hu⟩ := ok_of_bind (Option.some.inj hu)
    cases hu
    exact (settled_update (settled_first h.1 hn hop) h.2.1 (settled_leaf rfl hn)).mono (by omega)
  · obtain ⟨op', hop, hu⟩ := ok_of_bind (Option.some.inj hu)
    cases hu
    exact (settled_update (settled_first h.1 hn hop) h.2.1 (settled_leaf rfl hn)).mono (by omega)
  · exact settled_plainLoop h.1 h.2.1 h.2.2.1 h.2.2.2.1 hn (Option.some.inj hu)
  · exact settled_endlessLoop h.1 h.2.1 hn (Option.some.inj hu)
  · cases hu

theorem settled_get {name : String} (h : Settled n t)
    (hg : (t.get name).mapError Error.access = .ok u) : Settled n u := by
  cases t with
  | node kind line fields =>
    simp only [Tree.get, Tree.field?] at hg
    split at hg
    · rename_i hl
      cases hg
      obtain ⟨l₁, l₂, he, -⟩ := List.lookup_eq_some_iff.mp hl
      have hmem : (name, u) ∈ kind.fields.zip fields :=
        he ▸ List.mem_append_right l₁ List.mem_cons_self
      exact settledAll_iff.mp h.2 u (List.of_mem_zip hmem).2
    · cases hg
  | null | bool | int | float | text | list => cases hg

theorem tree_partBy (call : Tree → Result) (t : Tree) : (partBy call t).tree = t := by
  cases t <;> rfl

theorem nested_memberName (given : Tree → Result) (line : Option Int) (t name : Tree)
    (hn : 0 < n) : nested given n (memberName line t name) =
      if (part t).hasKind .classConstant then constant line name else readVar line name := by
  obtain ⟨n, rfl⟩ := Nat.exists_eq_add_of_lt hn
  have hkind : (part t).hasKind .classConstant = t.isOf [.classConstant] := by
    cases t with
    | node kind => cases kind <;> rfl
    | null | bool | int | float | text | list => rfl
  unfold memberName
  rw [hkind]
  split
  · exact congrArg (constant line) (tree_partBy _ name)
  · exact congrArg (readVar line) (tree_partBy _ name)

theorem nested_memberValue (given : Tree → Result) (line : Option Int) (h : Settled n t)
    (hn : 0 < n) : nested given n (memberValue line t) =
      if (part t).isNull then .ok (Script.load line "None") else (part t).script := by
  cases t with
  | null =>
    obtain ⟨n, rfl⟩ := Nat.exists_eq_add_of_lt hn
    have hlower : "None".map Char.toLower = "none" := by decide +kernel
    change constant line (.text "None") = .ok (Script.load line "None")
    rw [constant, hlower]
    rfl
  | bool | int | float | text | list | node => exact h.settles given

/-- The calls for a member ask for a name, which takes no further call, and for a value. -/
theorem memberBy_settled (given : Tree → Result) (h : Settled n nodes) (hn : 0 < n) :
    memberBy (nested given n) line nodes = member line (part nodes) := by
  unfold memberBy member
  rw [part_tree, items_part]
  refine bind_congr_ok fun k _ => ite_congr rfl (fun _ => rfl) fun _ => ?_
  rw [map_bind]
  refine bind_congr_ok fun us hus => ?_
  cases us with
  | nil => rfl
  | cons t us =>
    have ht : Settled n t := (settled_items h hn hus).1
    rw [List.map_cons]
    dsimp only
    rw [field_part, map_bind]
    refine bind_congr_ok fun name _ => ?_
    rw [field_part, map_bind]
    refine bind_congr_ok fun initial hinitial => ?_
    rw [nested_memberName given line t name hn,
      nested_memberValue given line (settled_get ht hinitial) hn, part_tree, ite_bind]
    simp only [ite_bind]

theorem mem_of_members? {fields : List Tree} (h : members? kind fields = some nodes) :
    nodes ∈ fields := by
  unfold members? at h
  split at h <;> cases h <;> simp

theorem convert_members {fields : List Tree} (h : members? kind fields = some nodes) :
    convert (.node kind line fields) = member line (part nodes) := by
  unfold members? at h
  split at h <;> cases h <;> rfl

/-- A node is settled six levels above what is inside it. -/
theorem settles_node {fields : List Tree} (h : SettledAll n fields) (hn : fields ≠ [] → 0 < n) :
    Settles (n + 6) (.node kind line fields) := by
  cases fields with
  | nil =>
    refine Settles.mono (n := n + 1) (settles_of_step h fun call => ?_) (by omega)
    cases kind <;> rfl
  | cons field fields =>
    replace hn := hn (List.cons_ne_nil field fields)
    cases hr : recast? kind line (field :: fields) with
    | some r =>
      by_cases hk : kind = .block
      · subst hk
        cases fields with
        | nil => exact (settled_block h.1 hn).settles.mono (by omega)
        | cons => cases hr
      · intro given
        have hstep : nested given (n + 6) (.node kind line (field :: fields)) =
            r >>= nested given (n + 5) := by
          simp only [nested, step, hr]
        rw [hstep, ← convert_recast hr]
        cases r with
        | error e => rfl
        | ok u => exact (settled_recast hk h hn hr).settles given
    | none =>
      refine Settles.mono (n := n + 1) ?_ (by omega)
      cases hm : members? kind (field :: fields) with
      | some nodes =>
        intro given
        have hnodes : Settled n nodes := settledAll_iff.mp h nodes (mem_of_members? hm)
        have hstep : nested given (n + 1) (.node kind line (field :: fields)) =
            memberBy (nested given n) line nodes := by
          simp only [nested, step, hr, hm]
        rw [hstep, memberBy_settled given hnodes hn, convert_members hm]
      | none => exact settles_of_step h fun call => by simp only [step, hr, hm]

mutual
/-- A tree is settled by six nested calls for each of its levels. -/
theorem settled_depth (t : Tree) : Settled (6 * t.depth) t := by
  cases t with
  | null | bool | int | float | text =>
    exact settled_leaf rfl (Nat.mul_pos (by decide) (Tree.depth_pos _))
  | list ts =>
    have hle : 6 * depthAll ts ≤ 6 * (Tree.list ts).depth := by
      rw [Tree.depth]
      omega
    exact settled_list ((settledAll_depth ts).mono hle) (by rw [Tree.depth]; omega)
  | node kind line fields =>
    have hdepth : 6 * (Tree.node kind line fields).depth = 6 * depthAll fields + 6 := by
      rw [Tree.depth]
      omega
    rw [hdepth]
    have hfields := settledAll_depth fields
    refine ⟨settles_node hfields fun hne => ?_, hfields.mono (by omega)⟩
    have hpos := depthAll_pos hne
    omega

theorem settledAll_depth (ts : List Tree) : SettledAll (6 * depthAll ts) ts := by
  cases ts with
  | nil => trivial
  | cons t ts =>
    have hmax : depthAll (t :: ts) = max t.depth (depthAll ts) := rfl
    exact ⟨(settled_depth t).mono (by omega), (settledAll_depth ts).mono (by omega)⟩
end

/-- The calls on a tree end, in its script or in an error, and they nest no deeper than six times
its depth: whatever deeper calls are taken to give, none of it is asked for. -/
theorem nested_eq_convert (given : Tree → Result) (t : Tree) (n : Nat) :
    nested given (6 * t.depth + n) t = convert t :=
  (settled_depth t).settles.mono (Nat.le_add_right _ n) given

end Conversion
end Docblock
