import Docblock.Proofs.Script.Loops
import Docblock.Proofs.Script.Staging

/-! Scripts in scripts, and the bodies among them: the script of an expression has no body in it. -/
namespace Docblock

open Docblock.Tree

namespace Script

variable {P : Script → Prop} {s : Script} {l : Option Int}

/-- The scripts of which a script is made. -/
def children : Script → List Script
  | .functionDef _ _ _ defaults body _ => defaults ++ body
  | .classDef _ _ _ body => body
  | .returnValue _ v | .print _ v | .raise _ v | .expr _ v | .unaryOp _ _ v | .attribute _ v _ _
  | .keyword _ v => [v]
  | .delete _ ss | .list _ ss _ | .tuple _ ss _ => ss
  | .assign _ a b | .boolOp _ _ a b | .binOp _ a _ b | .compare _ a _ b | .subscript _ a b _ =>
    [a, b]
  | .forEach _ target iter body => target :: iter :: body
  | .whileLoop _ test body => test :: body
  | .ifElse _ test body orElse => test :: (body ++ orElse)
  | .tryExcept _ body handlers => body ++ handlers
  | .handler _ _ var body => var :: body
  | .ifExp _ a b c => [a, b, c]
  | .dict _ keys values => keys ++ values
  | .call _ func args keywords => func :: (args ++ keywords)
  | .returnNothing _ | .globalNames _ _ | .pass _ | .breakLoop _ | .continueLoop _ | .num _ _
  | .str _ _ | .name _ _ _ | .loopTarget _ _ => []

/-- A script stands in a script, directly or further down. -/
inductive Has : Script → Script → Prop
  | self (s : Script) : Has s s
  | child {s c n : Script} (hc : c ∈ s.children) (h : Has c n) : Has s n

/-- The body of a statement that has one. -/
def body? : Script → Option (List Script)
  | .functionDef _ _ _ _ body _ | .classDef _ _ _ body | .forEach _ _ _ body
  | .whileLoop _ _ body | .ifElse _ _ body _ | .tryExcept _ body _ | .handler _ _ _ body =>
    some body
  | _ => none

/-- What is done when the test of a conditional fails. -/
def alternative : Script → List Script
  | .ifElse _ _ _ orElse => orElse
  | _ => []

/-- A property of all scripts in a script. -/
def Every (P : Script → Prop) (s : Script) : Prop := ∀ n, s.Has n → P n

theorem every_iff : Every P s ↔ P s ∧ ∀ c ∈ s.children, Every P c := by
  constructor
  · intro h
    exact ⟨h s (.self s), fun c hc n hn => h n (.child hc hn)⟩
  · rintro ⟨hs, hc⟩ n hn
    cases hn with
    | self => exact hs
    | child hmem hn => exact hc _ hmem n hn

/-- No body stands in the script. -/
abbrev Bodiless (s : Script) : Prop := Every (fun n => n.body? = none) s

/-- A property that holds wherever there is no body. -/
def Lenient (P : Script → Prop) : Prop := ∀ n, n.body? = none → P n

theorem Lenient.every_iff (hP : Lenient P) (hs : s.body? = none) :
    Every P s ↔ ∀ c ∈ s.children, Every P c := by
  rw [Script.every_iff]
  exact and_iff_right (hP s hs)

theorem Lenient.every (hP : Lenient P) (h : s.Bodiless) : Every P s :=
  fun n hn => hP n (h n hn)

theorem bodiless_iff (hs : s.body? = none) : s.Bodiless ↔ ∀ c ∈ s.children, c.Bodiless :=
  Lenient.every_iff (fun _ h => h) hs

theorem bodiless_leaf (hs : s.body? = none) (hc : s.children = []) : s.Bodiless :=
  (bodiless_iff hs).mpr (by simp [hc])

theorem Lenient.every_toStmt (hP : Lenient P) : Every P s.toStmt ↔ Every P s := by
  unfold toStmt
  split
  · rfl
  · rw [hP.every_iff rfl]
    simp [children]

theorem Lenient.every_store (hP : Lenient P) : Every P s.store ↔ Every P s := by
  unfold store
  split
  all_goals first
    | rw [hP.every_iff rfl, hP.every_iff rfl]; rfl
    | rfl

end Script

namespace Conversion

section Yields

variable {α β : Type} {Q : α → Prop} {R : β → Prop} {x : Except Error α} {f : α → Except Error β}

theorem Yields.bind (hx : Yields Q x) (hf : ∀ a, Q a → Yields R (f a)) :
    Yields R (x >>= f) := by
  intro b hb
  obtain ⟨a, ha, hb⟩ := ok_of_bind hb
  exact hf a (hx a ha) b hb

theorem Yields.mapM {as : List α} (h : ∀ a ∈ as, Yields R (f a)) :
    Yields (fun bs => ∀ b ∈ bs, R b) (as.mapM f) := by
  intro bs hbs b hb
  have hmem : .ok b ∈ as.map f := map_eq_of_mapM hbs ▸ List.mem_map_of_mem hb
  obtain ⟨a, ha, hab⟩ := List.mem_map.mp hmem
  exact h a ha b hab

end Yields

/-- A part of an expression: no script of it or of its parts has a body. Closures are not looked
into. -/
inductive Clean : Part → Prop
  | mk {p : Part} (hs : Yields Script.Bodiless p.script)
      (hp : p.hasKind .closure = false → ∀ q ∈ p.parts, Clean q) : Clean p

theorem Clean.script {p : Part} (h : Clean p) : Yields Script.Bodiless p.script := by
  cases h with
  | mk hs _ => exact hs

theorem Clean.parts {p : Part} (h : Clean p) (hk : p.hasKind .closure = false) :
    ∀ q ∈ p.parts, Clean q := by
  cases h with
  | mk _ hp => exact hp hk

theorem clean_leaf {t : Tree} {s : Script} (hs : s.body? = none) (hc : s.children = []) :
    Clean ⟨t, .ok s, []⟩ :=
  .mk (yields_ok (Script.bodiless_leaf hs hc)) fun _ _ hq => nomatch hq

theorem clean_ofText (s : String) : Clean (Part.ofText s) := clean_leaf rfl rfl

theorem Clean.items {p : Part} (h : Clean p) : Yields (fun qs => ∀ q ∈ qs, Clean q) p.items := by
  unfold Part.items
  split
  · rename_i heq
    exact yields_ok (h.parts (by simp [Part.hasKind, heq]))
  · refine yields_ok ?_
    rw [List.forall_mem_map]
    exact fun c _ => clean_ofText _
  · exact yields_error _

/-- A field that a closure does not have. -/
theorem Clean.field {p : Part} (h : Clean p) (name : String)
    (hn : name ∉ Kind.closure.fields) : Yields Clean (p.field name) := by
  unfold Part.field
  split
  · rename_i k line fs heq
    split
    · rename_i q hq
      obtain ⟨front, back, hzip, -⟩ := List.lookup_eq_some_iff.mp hq
      have hmem : (name, q) ∈ k.fields.zip p.parts := by simp [hzip]
      obtain ⟨hname, hpart⟩ := List.of_mem_zip hmem
      refine yields_ok (h.parts ?_ q hpart)
      simp only [Part.hasKind, heq, beq_eq_false_iff_ne]
      rintro rfl
      exact hn hname
    · exact yields_error _
  · exact yields_error _

theorem Clean.scripts {p : Part} (h : Clean p) :
    Yields (fun ss => ∀ s ∈ ss, s.Bodiless) p.scripts :=
  h.items.bind fun _ hqs => .mapM fun q hq => (hqs q hq).script

open Docblock.Script (children bodiless_iff)

variable {line : Option Int} {p q : Part}

/-- Scripts without a body, made of scripts without one. -/
theorem yields_bodiless {s : Script} (hs : s.body? = none) (hc : ∀ c ∈ s.children, c.Bodiless) :
    Yields Script.Bodiless (.ok s) := yields_ok ((bodiless_iff hs).mpr hc)

theorem bodiless_name (line : Option Int) (id : Tree) : (Script.name line id .load).Bodiless :=
  Script.bodiless_leaf rfl rfl

theorem bodiless_load (line : Option Int) (id : String) : (Script.load line id).Bodiless :=
  bodiless_name _ _

theorem bodiless_callNamed {id : String} {args : List Script} (h : ∀ a ∈ args, a.Bodiless) :
    (Script.callNamed line id args).Bodiless :=
  (bodiless_iff rfl).mpr (by simpa [children, Script.callNamed, bodiless_load] using h)

theorem bodiless_str (line : Option Int) (t : Tree) : (Script.str line t).Bodiless :=
  Script.bodiless_leaf rfl rfl

theorem bodiless_fallback (line : Option Int) (t : Tree) : (Part.fallback line t).Bodiless :=
  bodiless_callNamed (by simp [bodiless_str])

theorem array_bodiless (h : Clean p) : Yields Script.Bodiless (array line p) := by
  unfold array
  split
  · exact yields_ok (Script.bodiless_leaf rfl rfl)
  · split
    · exact yields_error _
    · rename_i ts head tail htree hparts
      have hclean := h.parts (by simp [Part.hasKind, htree])
      refine ((hclean head (by simp [hparts])).field "key" (by decide)).bind fun key _ => ?_
      split
      · refine Yields.bind (.mapM fun e he => ?_) fun values hvalues => yields_bodiless rfl hvalues
        exact ((hclean e he).field "value" (by decide)).bind fun v hv => hv.script
      · refine Yields.bind (Q := fun pairs : List (Script × Script) =>
          ∀ r ∈ pairs, r.1.Bodiless ∧ r.2.Bodiless) (.mapM fun e he => ?_) fun pairs hpairs => ?_
        · refine ((hclean e he).field "key" (by decide)).bind fun k hk => ?_
          refine hk.script.bind fun _ hk => ?_
          refine ((hclean e he).field "value" (by decide)).bind fun v hv => ?_
          exact hv.script.bind fun _ hv => yields_ok ⟨hk, hv⟩
        · refine yields_bodiless rfl ?_
          simp only [children, List.forall_mem_append, List.forall_mem_map]
          exact ⟨fun r hr => (hpairs r hr).1, fun r hr => (hpairs r hr).2⟩
    · exact yields_error _

theorem isSet_bodiless (h : Clean p) : Yields Script.Bodiless (isSet line p) := by
  unfold isSet
  split
  · rename_i node index htree hparts
    have hclean := h.parts (by simp [Part.hasKind, htree])
    refine (hclean index (by simp [hparts])).script.bind fun i hi => ?_
    refine (hclean node (by simp [hparts])).script.bind fun v hv => ?_
    exact yields_bodiless rfl (by simp [children, hi, hv])
  · rename_i node name htree hparts
    have hclean := h.parts (by simp [Part.hasKind, htree])
    refine (hclean node (by simp [hparts])).script.bind fun v hv => ?_
    refine (hclean name (by simp [hparts])).script.bind fun n hn => ?_
    exact yields_ok (bodiless_callNamed (by simp [hn, hv]))
  · refine yields_bind fun _ => yields_bodiless rfl ?_
    simp [children, bodiless_str, bodiless_callNamed]
  · refine h.script.bind fun s hs => yields_bodiless rfl ?_
    simp [children, hs, bodiless_load]

theorem unary_bodiless {op : Tree} (h : Clean p) :
    Yields Script.Bodiless (unary line op p.script) := by
  unfold unary
  refine yields_bind fun name => ?_
  split
  · exact yields_error _
  · exact h.script.bind fun s hs => yields_bodiless rfl (by simp [children, hs])

/-- The parts for the places of a pattern are parts of what is joined. -/
theorem format_clean (hp : Clean p) (hq : Clean q) : ∀ r ∈ (format p q).2, Clean r := by
  have hextend : ∀ {pattern : String × List Part} {last : Part}, (∀ r ∈ pattern.2, Clean r) →
      Clean last → ∀ r ∈ (extend pattern last).2, Clean r := by
    intro pattern last hpattern hlast
    unfold extend
    split
    · exact hpattern
    · exact List.forall_mem_append.mpr ⟨hpattern, by simpa using hlast⟩
  fun_induction format p q with
  | case1 line fs s op left right last ih =>
    have hclean := hp.parts (by simp [Part.hasKind, Part.tree])
    exact hextend (ih (hclean left (by simp [Part.parts])) (hclean right (by simp [Part.parts]))) hq
  | case2 => exact hextend (by simp) hq
  | case3 => exact hextend (by simpa using hp) hq

theorem binary_bodiless {op : Tree} (hp : Clean p) (hq : Clean q) :
    Yields Script.Bodiless (binary line op p q) := by
  have hboth : ∀ {s : Script → Script → Script}, (∀ a b, (s a b).body? = none) →
      (∀ a b, (s a b).children = [a, b]) → Yields Script.Bodiless (do
        let l ← p.script
        let r ← q.script
        return s l r) := by
    intro s hs hc
    refine hp.script.bind fun l hl => hq.script.bind fun r hr => ?_
    exact yields_bodiless (hs l r) (by simp [hc, hl, hr])
  unfold binary
  split
  · have hplaces := format_clean hp hq
    generalize format p q = r at hplaces
    obtain ⟨pattern, places⟩ := r
    dsimp only
    split
    · exact yields_ok (bodiless_str _ _)
    · refine Yields.bind (.mapM fun r hr => (hplaces r hr).script) fun values hvalues => ?_
      refine yields_bodiless rfl ?_
      have htuple : (Script.tuple line values .load).Bodiless := (bodiless_iff rfl).mpr hvalues
      simp [children, bodiless_str, htuple]
  · refine yields_bind fun name => ?_
    split
    · exact hboth (fun _ _ => rfl) fun _ _ => rfl
    · split
      · exact hboth (fun _ _ => rfl) fun _ _ => rfl
      · split
        · exact yields_error _
        · exact hboth (fun _ _ => rfl) fun _ _ => rfl

theorem assignment_bodiless {value : Result} (h : Clean p) (hv : Yields Script.Bodiless value) :
    Yields Script.Bodiless (assignment line p value) := by
  unfold assignment
  split
  · rename_i node _ htree hparts
    have hclean := h.parts (by simp [Part.hasKind, htree])
    refine (hclean node (by simp [hparts])).script.bind fun v hnode => hv.bind fun w hw => ?_
    have hattribute : (Script.attribute line v (.text "append") .load).Bodiless :=
      (bodiless_iff rfl).mpr (by simpa [children] using hnode)
    exact yields_bodiless rfl (by simp [children, hattribute, hw])
  · rename_i node name htree hparts
    have hclean := h.parts (by simp [Part.hasKind, htree])
    refine (hclean node (by simp [hparts])).script.bind fun v hnode => ?_
    refine (hclean name (by simp [hparts])).script.bind fun n hname => hv.bind fun w hw => ?_
    exact yields_bodiless rfl (by simp [children, bodiless_callNamed, hnode, hname, hw])
  · refine h.script.bind fun t ht => hv.bind fun w hw => yields_bodiless rfl ?_
    simp [children, hw, (Script.Lenient.every_store fun _ h => h).mpr ht]

theorem arguments_bodiless (h : Clean p) :
    Yields (fun r => ∀ s ∈ r.1 ++ r.2, s.Bodiless) (arguments p) := by
  unfold arguments
  refine h.items.bind fun qs hqs => ?_
  refine Yields.bind (Q := fun rs : List (Option Script × Option Script) =>
    ∀ r ∈ rs, (∀ s ∈ r.1, s.Bodiless) ∧ ∀ s ∈ r.2, s.Bodiless)
    (.mapM fun q hq => ?_) fun rs hrs => ?_
  · refine ((hqs q hq).field "node" (by decide)).bind fun n hn => hn.script.bind fun s hs => ?_
    split
    · -- An assignment to a name is taken apart.
      have hvalue := (bodiless_iff rfl).mp hs
      refine yields_ok ⟨by simp, ?_⟩
      simp only [Option.mem_some, forall_eq']
      exact (bodiless_iff rfl).mpr (by simpa [children] using hvalue _ (by simp [children]))
    · exact yields_error _
    · exact yields_ok ⟨by simpa using hs, by simp⟩
  · refine yields_ok ?_
    simp only [List.forall_mem_append, List.mem_filterMap, forall_exists_index, and_imp]
    exact ⟨fun s r hr hs => (hrs r hr).1 s hs, fun s r hr hs => (hrs r hr).2 s hs⟩

theorem constant_bodiless (name : Tree) : Yields Script.Bodiless (constant line name) := by
  unfold constant
  split
  · split <;> exact yields_ok (bodiless_load _ _)
  · exact yields_error _

theorem readVar_bodiless (name : Tree) : Yields Script.Bodiless (readVar line name) := by
  unfold readVar
  refine yields_bind fun _ => ?_
  split
  · exact yields_ok (bodiless_load _ _)
  · exact yields_ok (Script.bodiless_leaf rfl rfl)

theorem member_bodiless (h : Clean p) : Yields Script.Bodiless (member line p) := by
  unfold member
  refine yields_bind fun n => ?_
  split
  · exact yields_error _
  · refine h.items.bind fun qs hqs => ?_
    split
    · rename_i q _
      have hq : Clean q := hqs q List.mem_cons_self
      refine yields_bind fun name => (hq.field "initial" (by decide)).bind fun initial hi => ?_
      have hassign : ∀ {target value : Script}, target.Bodiless → value.Bodiless →
          Yields Script.Bodiless (.ok (.assign line target.store value)) := by
        intro target value ht hv
        exact yields_bodiless rfl
          (by simp [children, hv, (Script.Lenient.every_store fun _ h => h).mpr ht])
      split
      · split
        · exact (constant_bodiless _).bind fun _ ht => hassign ht (bodiless_load _ _)
        · exact (readVar_bodiless _).bind fun _ ht => hassign ht (bodiless_load _ _)
      · split
        · exact (constant_bodiless _).bind fun _ ht => hi.script.bind fun _ hv => hassign ht hv
        · exact (readVar_bodiless _).bind fun _ ht => hi.script.bind fun _ hv => hassign ht hv
    · exact yields_error _

theorem call_bodiless (hp : Clean p) (hq : Clean q) : Yields Script.Bodiless (call line p q) := by
  unfold call
  have hcall : ∀ func : Script, func.Bodiless → Yields Script.Bodiless (do
      let r ← arguments q
      return .call line func r.1 r.2) := by
    intro func hfunc
    refine (arguments_bodiless hq).bind fun r hr => yields_bodiless rfl ?_
    simpa [children, hfunc] using hr
  split
  · exact hcall _ (bodiless_load _ _)
  · refine hp.script.bind fun s hs => hcall _ ?_
    exact (bodiless_iff rfl).mpr (by simp [children, bodiless_callNamed, hs])

theorem property_bodiless (hp : Clean p) (hq : Clean q) :
    Yields Script.Bodiless (property line p q) := by
  unfold property
  split
  · refine hp.script.bind fun v hv => hq.script.bind fun n hn => ?_
    exact yields_ok (bodiless_callNamed (by simp [hv, hn]))
  · exact hp.script.bind fun v hv => yields_bodiless rfl (by simp [children, hv])

theorem inclusion_bodiless (func : String) (h : Clean p) :
    Yields Script.Bodiless (inclusion line func p q) :=
  h.script.bind fun s hs => yields_ok (bodiless_callNamed (by simp [hs, bodiless_load]))

theorem cast_bodiless (h : Clean q) : Yields Script.Bodiless (cast line p q) := by
  refine yields_bind fun _ => h.script.bind fun s hs => ?_
  exact yields_bodiless rfl (by simp [children, hs, bodiless_name])

/-- A call of a field of something. -/
theorem callOn_bodiless {func : Script} {name : Tree} {args keywords : List Script}
    (hf : func.Bodiless) (ha : ∀ s ∈ args ++ keywords, s.Bodiless) :
    Yields Script.Bodiless (.ok (.call line (.attribute line func name .load) args keywords)) := by
  have hattribute : (Script.attribute line func name .load).Bodiless :=
    (bodiless_iff rfl).mpr (by simpa [children] using hf)
  exact yields_bodiless rfl (by simpa [children, hattribute] using ha)

/-- A script around the script of one part. -/
theorem wrap_bodiless {s : Script → Script} (h : Clean p) (hs : ∀ a, (s a).body? = none)
    (hc : ∀ a, (s a).children = [a]) : Yields Script.Bodiless (do return s (← p.script)) :=
  h.script.bind fun a ha => yields_bodiless (hs a) (by simp [hc, ha])

theorem exit_bodiless (t : Tree) (h : Clean p) :
    Yields Script.Bodiless (convertNode t .exit line [p]) := by
  have hraise : ∀ {args : List Script}, (∀ a ∈ args, a.Bodiless) →
      Yields Script.Bodiless (.ok (.raise line (Script.callNamed line "Exit" args))) :=
    fun hargs => yields_bodiless rfl (by simpa [children] using bodiless_callNamed hargs)
  unfold convertNode
  dsimp only
  split
  · exact hraise (by simp)
  · exact h.script.bind fun s hs => hraise (by simp [hs])

theorem returnValue_bodiless (t : Tree) (h : Clean p) :
    Yields Script.Bodiless (convertNode t .returnValue line [p]) := by
  unfold convertNode
  dsimp only
  split
  · exact yields_ok (Script.bodiless_leaf rfl rfl)
  · exact wrap_bodiless h (fun _ => rfl) fun _ => rfl

/-- A way out of a loop, from one level only. -/
theorem leave_bodiless {s : Script} {e : Error} (hs : s.body? = none) (hc : s.children = []) :
    Yields Script.Bodiless (if p.isNull then .ok s else .error e) := by
  split
  · exact yields_ok (Script.bodiless_leaf hs hc)
  · exact yields_error _

theorem isSetAll_bodiless (t : Tree) (h : Clean p) :
    Yields Script.Bodiless (convertNode t .isSet line [p]) := by
  refine yields_bind fun n => ?_
  split
  · refine h.items.bind fun qs hqs => ?_
    split
    · exact isSet_bodiless (hqs _ List.mem_cons_self)
    · exact yields_ok (bodiless_fallback _ _)
  · exact yields_ok (bodiless_fallback _ _)

theorem empty_bodiless (t : Tree) (h : Clean p) :
    Yields Script.Bodiless (convertNode t .empty line [p]) := by
  refine (isSet_bodiless h).bind fun set hset => h.script.bind fun s hs => ?_
  have hboth : (Script.boolOp line .and set s).Bodiless :=
    (bodiless_iff rfl).mpr (by simp [children, hset, hs])
  exact yields_bodiless rfl (by simp [children, hboth])

theorem listAssignment_bodiless (t : Tree) (hp : Clean p) (hq : Clean q) :
    Yields Script.Bodiless (convertNode t .listAssignment line [p, q]) := by
  refine hp.scripts.bind fun targets ht => hq.script.bind fun s hs => ?_
  have htuple : (Script.tuple line (targets.map Script.store) .store).Bodiless := by
    refine (bodiless_iff rfl).mpr ?_
    rw [children, List.forall_mem_map]
    exact fun s hs => (Script.Lenient.every_store fun _ h => h).mpr (ht s hs)
  exact yields_bodiless rfl (by simp [children, htuple, hs])

theorem staticProperty_bodiless (t : Tree) :
    Yields Script.Bodiless (convertNode t .staticProperty line [p, q]) := by
  have hattribute : ∀ cls attr : Tree, Yields Script.Bodiless
      (.ok (.attribute line (.name line cls .load) attr .load)) :=
    fun cls attr => yields_bodiless rfl (by simp [children, bodiless_name])
  unfold convertNode
  dsimp only
  split
  · exact yields_bind fun _ => hattribute _ _
  · exact hattribute _ _

/-- The script of a node that is no statement with a body has no body, if no part of it has one. -/
theorem convertNode_bodiless (t : Tree) {k : Tree.Kind} (hk : k ∉ suiteKinds) {ps : List Part}
    (hps : ∀ p ∈ ps, Clean p) : Yields Script.Bodiless (convertNode t k line ps) := by
  have hone : Clean (Part.ofInt 1) := clean_leaf rfl rfl
  by_cases hlength : ps.length = k.fields.length
  swap
  · rw [convertNode_of_length t hlength]
    exact yields_ok (bodiless_fallback _ _)
  cases k with
  | block | ifElse | forLoop | foreach | whileLoop | doWhile | tryBlock | function | method
  | classDecl => exact absurd (by decide) hk
  | array =>
    obtain ⟨nodes, rfl⟩ := List.length_eq_one_iff.mp hlength
    exact array_bodiless (hps nodes (by simp))
  | inlineHtml =>
    obtain ⟨data, rfl⟩ := List.length_eq_one_iff.mp hlength
    exact yields_ok (bodiless_callNamed (by simp [bodiless_str]))
  | echo =>
    obtain ⟨nodes, rfl⟩ := List.length_eq_one_iff.mp hlength
    exact (hps nodes (by simp)).scripts.bind fun ss hss => yields_ok (bodiless_callNamed hss)
  | print | «throwError» =>
    obtain ⟨node, rfl⟩ := List.length_eq_one_iff.mp hlength
    exact wrap_bodiless (hps node (by simp)) (fun _ => rfl) fun _ => rfl
  | exit =>
    obtain ⟨expr, rfl⟩ := List.length_eq_one_iff.mp hlength
    exact exit_bodiless t (hps expr (by simp))
  | returnValue =>
    obtain ⟨node, rfl⟩ := List.length_eq_one_iff.mp hlength
    exact returnValue_bodiless t (hps node (by simp))
  | breakLoop | continueLoop =>
    obtain ⟨node, rfl⟩ := List.length_eq_one_iff.mp hlength
    exact leave_bodiless rfl rfl
  | silence =>
    obtain ⟨expr, rfl⟩ := List.length_eq_one_iff.mp hlength
    exact (hps expr (by simp)).script
  | unset =>
    obtain ⟨nodes, rfl⟩ := List.length_eq_one_iff.mp hlength
    exact (hps nodes (by simp)).scripts.bind fun ss hss => yields_bodiless rfl hss
  | isSet =>
    obtain ⟨nodes, rfl⟩ := List.length_eq_one_iff.mp hlength
    exact isSetAll_bodiless t (hps nodes (by simp))
  | empty =>
    obtain ⟨expr, rfl⟩ := List.length_eq_one_iff.mp hlength
    exact empty_bodiless t (hps expr (by simp))
  | constant =>
    obtain ⟨name, rfl⟩ := List.length_eq_one_iff.mp hlength
    exact constant_bodiless _
  | var =>
    obtain ⟨name, rfl⟩ := List.length_eq_one_iff.mp hlength
    exact readVar_bodiless _
  | globalVars =>
    obtain ⟨nodes, rfl⟩ := List.length_eq_one_iff.mp hlength
    exact yields_bind fun _ => yields_bind fun _ => yields_ok (Script.bodiless_leaf rfl rfl)
  | classConstants =>
    obtain ⟨nodes, rfl⟩ := List.length_eq_one_iff.mp hlength
    exact member_bodiless (hps nodes (by simp))
  | classVariables =>
    obtain ⟨modifiers, nodes, rfl⟩ := List.length_eq_two.mp hlength
    exact member_bodiless (hps nodes (by simp))
  | listAssignment =>
    obtain ⟨nodes, expr, rfl⟩ := List.length_eq_two.mp hlength
    exact listAssignment_bodiless t (hps nodes (by simp)) (hps expr (by simp))
  | preIncDec | postIncDec =>
    obtain ⟨op, expr, rfl⟩ := List.length_eq_two.mp hlength
    have hexpr := hps expr (by simp)
    exact yields_bind fun _ => assignment_bodiless hexpr (binary_bodiless hexpr hone)
  | arrayOffset =>
    obtain ⟨node, expr, rfl⟩ := List.length_eq_two.mp hlength
    refine (hps node (by simp)).script.bind fun v hv => ?_
    refine (hps expr (by simp)).script.bind fun i hi => ?_
    exact yields_bodiless rfl (by simp [children, hv, hi])
  | objectProperty =>
    obtain ⟨node, name, rfl⟩ := List.length_eq_two.mp hlength
    exact property_bodiless (hps node (by simp)) (hps name (by simp))
  | includeFile | requireFile =>
    obtain ⟨expr, once, rfl⟩ := List.length_eq_two.mp hlength
    exact inclusion_bodiless _ (hps expr (by simp))
  | unaryOp =>
    obtain ⟨op, expr, rfl⟩ := List.length_eq_two.mp hlength
    exact unary_bodiless (hps expr (by simp))
  | cast =>
    obtain ⟨type, expr, rfl⟩ := List.length_eq_two.mp hlength
    exact cast_bodiless (hps expr (by simp))
  | functionCall | newObject =>
    obtain ⟨name, params, rfl⟩ := List.length_eq_two.mp hlength
    exact call_bodiless (hps name (by simp)) (hps params (by simp))
  | staticProperty =>
    obtain ⟨node, name, rfl⟩ := List.length_eq_two.mp hlength
    exact staticProperty_bodiless t
  | assignment =>
    obtain ⟨target, expr, ref, rfl⟩ := List.length_eq_three.mp hlength
    exact assignment_bodiless (hps target (by simp)) (hps expr (by simp)).script
  | assignOp =>
    obtain ⟨op, left, right, rfl⟩ := List.length_eq_three.mp hlength
    have hleft := hps left (by simp)
    exact yields_bind fun _ =>
      assignment_bodiless hleft (binary_bodiless hleft (hps right (by simp)))
  | binaryOp =>
    obtain ⟨op, left, right, rfl⟩ := List.length_eq_three.mp hlength
    exact binary_bodiless (hps left (by simp)) (hps right (by simp))
  | ternaryOp =>
    obtain ⟨expr, yes, no, rfl⟩ := List.length_eq_three.mp hlength
    refine (hps expr (by simp)).script.bind fun c hc => ?_
    refine (hps yes (by simp)).script.bind fun a ha => ?_
    refine (hps no (by simp)).script.bind fun b hb => ?_
    exact yields_bodiless rfl (by simp [children, hc, ha, hb])
  | methodCall =>
    obtain ⟨node, name, params, rfl⟩ := List.length_eq_three.mp hlength
    refine (arguments_bodiless (hps params (by simp))).bind fun r hr => ?_
    exact (hps node (by simp)).script.bind fun s hs => callOn_bodiless hs hr
  | staticMethodCall =>
    obtain ⟨cls, name, params, rfl⟩ := List.length_eq_three.mp hlength
    exact (arguments_bodiless (hps params (by simp))).bind fun r hr =>
      callOn_bodiless (bodiless_name _ _) hr
  | _ => exact yields_ok (bodiless_fallback _ _)

/-- Closures, and the statements whose bodies are not looked at. -/
theorem convertNode_inert (t : Tree) {k : Tree.Kind} (hk : k = .closure ∨ k ∈ inertKinds)
    (ps : List Part) : convertNode t k line ps = .ok (Part.fallback line t) := by
  cases k <;> first | rfl | exact absurd hk (by decide)

mutual
/-- The parts of a plain tree have no bodies in them. -/
theorem part_clean : ∀ t : Tree, t.plain = true → Clean (part t)
  | .null, _ | .bool _, _ | .int _, _ | .float _, _ => clean_leaf rfl rfl
  | .text s, _ => clean_ofText s
  | .list ts, h => .mk (yields_ok (bodiless_fallback _ _)) fun _ => partAll_clean ts h
  | .node k line fs, h => by
    by_cases hk : k = .closure
    · refine .mk ?_ fun hc => ?_
      · have hscript : (part (.node k line fs)).script = _ := convertNode_inert _ (.inl hk) _
        rw [hscript]
        exact yields_ok (bodiless_fallback _ _)
      · simp [part, Part.hasKind, Part.tree, hk] at hc
    · obtain ⟨hs, hfs⟩ := (plain_node hk).mp h
      have hclean := partAll_clean fs (plainAll_iff.mpr hfs)
      exact .mk (convertNode_bodiless _ hs hclean) fun _ => hclean

theorem partAll_clean : ∀ ts : List Tree, plainAll ts = true → ∀ p ∈ partAll ts, Clean p
  | [], _ => by simp [partAll]
  | t :: ts, h => by
    rw [plainAll, Bool.and_eq_true] at h
    rw [partAll, List.forall_mem_cons]
    exact ⟨part_clean t h.1, partAll_clean ts h.2⟩
end

end Conversion
end Docblock
