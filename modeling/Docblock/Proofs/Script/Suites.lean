import Docblock.Proofs.Grammar.Staging
import Docblock.Proofs.Script.Bodies
import Docblock.Proofs.Source

/-! The bodies in the script of a statement: they hold statements only, and they are empty just
where the bodies of the statement are. -/
namespace Docblock

open Docblock.Tree

namespace Script

/-- A function or a class. -/
def isDefinition : Script → Bool
  | .functionDef .. | .classDef .. => true
  | _ => false

/-- A script whose body, and whatever is done in its place, holds statements only; a function or a
class is never empty. -/
def Legal (s : Script) : Prop :=
  (∀ c ∈ s.body?.getD [] ++ s.alternative, c.isStmt = true) ∧
    (s.isDefinition = true → s.body? ≠ some [])

/-- A script whose body is not empty, if it has one. -/
def Full (s : Script) : Prop := s.body? ≠ some []

theorem legal_lenient : Lenient Legal := by
  intro s hs
  cases s <;> first | cases hs; done | simp [Legal, body?, alternative, isDefinition]

theorem full_lenient : Lenient Full := by
  intro s hs
  simp [Full, hs]

theorem isStmt_toStmt (s : Script) : s.toStmt.isStmt = true := by
  unfold toStmt
  split
  · assumption
  · rfl

end Script

namespace Conversion

open Docblock.Script (Every Legal Full children)

variable {a b : Bool} {line : Option Int} {s : Script} {ss us : List Script} {ts : List Tree}

/-- Scripts in which all bodies are legal; some body in them is empty just if so said. -/
structure Suited (b : Bool) (ss : List Script) : Prop where
  legal : ∀ s ∈ ss, Every Legal s
  full : (∀ s ∈ ss, Every Full s) ↔ b = false

theorem suited_bodiless (h : ∀ s ∈ ss, s.Bodiless) : Suited false ss :=
  ⟨fun s hs => Script.legal_lenient.every (h s hs),
    by simpa using fun s hs => Script.full_lenient.every (h s hs)⟩

theorem Suited.append (h : Suited a ss) (h' : Suited b us) : Suited (a || b) (ss ++ us) :=
  ⟨List.forall_mem_append.mpr ⟨h.legal, h'.legal⟩,
    by rw [List.forall_mem_append, h.full, h'.full, Bool.or_eq_false_iff]⟩

theorem Suited.cons (h : s.Bodiless) (h' : Suited b ss) : Suited b (s :: ss) := by
  have hone : Suited false [s] := suited_bodiless (by simpa using h)
  exact hone.append h'

theorem Suited.map {f : Script → Script} (hl : ∀ s, Every Legal (f s) ↔ Every Legal s)
    (hf : ∀ s, Every Full (f s) ↔ Every Full s) (h : Suited b ss) : Suited b (ss.map f) := by
  constructor
  · rw [List.forall_mem_map]
    exact fun s hs => (hl s).mpr (h.legal s hs)
  · rw [List.forall_mem_map, ← h.full]
    exact forall₂_congr fun s _ => hf s

/-- A script with a body, from all of which it is made. -/
theorem suited_body {body : List Script} (hb : s.body? = some body) (hl : Legal s)
    (hc : Suited b s.children) : Suited (body.isEmpty || b) [s] := by
  constructor
  · simpa [Script.every_iff (s := s)] using ⟨hl, hc.legal⟩
  · have hfull : Full s ↔ body.isEmpty = false := by simp [Full, hb]
    rw [List.forall_mem_singleton, Script.every_iff, hfull, hc.full, Bool.or_eq_false_iff]

/-- Such scripts that are statements. -/
structure Stated (b : Bool) (ss : List Script) : Prop extends Suited b ss where
  isStmt : ∀ s ∈ ss, s.isStmt = true

theorem Stated.append (h : Stated a ss) (h' : Stated b us) : Stated (a || b) (ss ++ us) :=
  ⟨h.toSuited.append h'.toSuited, List.forall_mem_append.mpr ⟨h.isStmt, h'.isStmt⟩⟩

theorem Suited.toStmt (h : Suited b ss) : Stated b (ss.map Script.toStmt) := by
  refine ⟨h.map (fun _ => Script.legal_lenient.every_toStmt)
    fun _ => Script.full_lenient.every_toStmt, ?_⟩
  rw [List.forall_mem_map]
  exact fun s _ => Script.isStmt_toStmt s

theorem Stated.orPass (line : Option Int) (h : Stated b ss) : Stated b (Script.orPass line ss) := by
  unfold Script.orPass
  split
  · rename_i hempty
    obtain rfl := List.isEmpty_iff.mp hempty
    have hb : b = false := h.full.mp (by simp)
    subst hb
    exact ⟨suited_bodiless (by simpa using Script.bodiless_leaf rfl rfl), by simp [Script.isStmt]⟩
  · exact h

theorem orPass_ne_nil (line : Option Int) (ss : List Script) : Script.orPass line ss ≠ [] := by
  unfold Script.orPass
  split
  · simp
  · rename_i h
    exact fun hnil => h (List.isEmpty_iff.mpr hnil)

/-- The scripts of statements. -/
structure Suite (ts : List Tree) (ss : List Script) : Prop extends
    Stated (ts.any hollow) ss where
  isEmpty_eq : ss.isEmpty = ts.isEmpty

/-- A body is empty, or has an empty body in it, just if the statement for it is hollow. -/
theorem Suite.hollow_eq {t : Tree} (h : Suite t.statements ss) :
    (ss.isEmpty || t.statements.any hollow) = t.hollow := by
  rw [h.isEmpty_eq, hollow_eq_statements]

theorem suited_mapM {α : Type} {f : α → Bool} {g : α → Result} {as : List α}
    (h : ∀ a ∈ as, Yields (fun s => Suited (f a) [s]) (g a)) :
    Yields (fun ss => Suited (as.any f) ss ∧ ss.length = as.length) (as.mapM g) := by
  induction as with
  | nil => exact yields_ok ⟨suited_bodiless (by simp), rfl⟩
  | cons a as ih =>
    obtain ⟨ha, has⟩ := List.forall_mem_cons.mp h
    rw [List.mapM_cons]
    refine ha.bind fun s hs => (ih has).bind fun ss hss => yields_ok ?_
    exact ⟨hs.append hss.1, by simp [hss.2]⟩

/-- A statement whose script, if it has one, has an empty body in it just if it is hollow. -/
def Kept (t : Tree) : Prop := Yields (fun s => Suited t.hollow [s]) (convert t)

theorem kept_plain {t : Tree} (h : t.plain = true) : Kept t := by
  intro s hs
  rw [hollow_of_plain h]
  exact suited_bodiless (by simpa using (part_clean t h).script s hs)

theorem suite_of_kept (h : ∀ t ∈ ts, Kept t) :
    Yields (Suite ts) (part (.list ts)).statements := by
  rw [statements_part]
  intro ss hss
  obtain ⟨us, hus, rfl⟩ := ok_of_map hss
  obtain ⟨hsuited, hlength⟩ := suited_mapM h us hus
  refine ⟨hsuited.toStmt, ?_⟩
  rw [Bool.eq_iff_iff, List.isEmpty_iff_length_eq_zero, List.isEmpty_iff_length_eq_zero,
    List.length_map, hlength]

theorem statements_node {k : Kind} {fs : List Tree} (hk : k ≠ .block) :
    (Tree.node k line fs).statements = [.node k line fs] := by
  rw [Tree.statements]
  rintro _ _ ⟨⟩
  exact hk rfl

theorem deblock_node {k : Kind} {fs : List Tree} (hk : k ≠ .block) :
    (part (.node k line fs)).deblock = part (.list [.node k line fs]) := by
  unfold Part.deblock
  split
  · rename_i heq _
    cases heq
    exact absurd rfl hk
  · rfl

theorem ne_block_of_plain {k : Kind} {fs : List Tree} (h : (Tree.node k line fs).plain = true) :
    k ≠ .block := by
  rintro rfl
  exact absurd (by decide) ((plain_node (by decide)).mp h).1

theorem ne_block_of_inert {k : Kind} (h : k ∈ inertKinds) : k ≠ .block := by
  rintro rfl
  exact absurd h (by decide)

/-- The statements of a body are the ones in it, or the one that stands for it. -/
theorem deblock_staged {t : Tree} (h : Staged t) :
    (part t).deblock = part (.list t.statements) := by
  cases h with
  | plain hp =>
    cases t with
    | node k line fs =>
      rw [deblock_node (ne_block_of_plain hp), statements_node (ne_block_of_plain hp)]
    | null | bool | int | float | text | list => rfl
  | inert hk => rw [deblock_node (ne_block_of_inert hk), statements_node (ne_block_of_inert hk)]
  | _ => rfl

theorem yields_body {t : Tree} (h : Staged t) (hk : ∀ u ∈ t.statements, Kept u) :
    Yields (Suite t.statements) (part t).body := by
  rw [Part.body, deblock_staged h]
  exact suite_of_kept hk

/-- A script with statements for its body, an alternative apart. -/
theorem legal_of_body {body : List Script} (hb : s.body? = some body)
    (ha : s.alternative = []) (hd : s.isDefinition = false)
    (h : ∀ c ∈ body, c.isStmt = true) : Legal s := by
  refine ⟨?_, by simp [hd]⟩
  rw [hb, ha, Option.getD_some, List.append_nil]
  exact h

variable {t test body : Tree} {c : Script}

theorem suited_block (line : Option Int) (h : Stated b ss) :
    Suited (ss.isEmpty || b) [block line ss] := by
  have halways : always.Bodiless := Script.bodiless_leaf rfl rfl
  refine suited_body rfl ⟨?_, by simp [block, Script.isDefinition]⟩ ?_
  · simpa [block, Script.body?, Script.alternative] using h.isStmt
  · simpa [block, children] using h.toSuited.cons halways

theorem suited_whileLoop (line : Option Int) (hc : c.Bodiless) (h : Stated b ss) :
    Suited (ss.isEmpty || b) [.whileLoop line c ss] :=
  suited_body rfl (legal_of_body rfl rfl rfl h.isStmt) (h.toSuited.cons hc)

theorem stated_ifElse (line : Option Int) (hc : c.Bodiless) (h : Suite t.statements ss)
    (h' : Stated b us) : Stated (t.hollow || b) [.ifElse line c ss us] := by
  refine ⟨?_, by simp [Script.isStmt]⟩
  rw [← h.hollow_eq, Bool.or_assoc]
  refine suited_body rfl ⟨?_, by simp [Script.isDefinition]⟩ ?_
  · exact List.forall_mem_append.mpr ⟨h.isStmt, h'.isStmt⟩
  · exact (h.toSuited.append h'.toSuited).cons hc

theorem kept_block (h : ∀ t ∈ ts, Kept t) : Kept (.node .block line [.list ts]) := by
  refine Yields.bind (suite_of_kept h) fun ss hss => yields_ok ?_
  rw [hollow, hollowIn_eq_any, ← hss.isEmpty_eq]
  exact suited_block _ hss.toStated

/-- A statement is kept if the statements in it are, or the one that it is. -/
theorem kept_of_statements (h : ∀ u ∈ t.statements, Kept u) : Kept t := by
  unfold Tree.statements at h
  split at h
  · exact kept_block h
  · simpa using h

theorem kept_whileLoop (ht : test.plain = true) (hb : Staged body)
    (h : ∀ u ∈ body.statements, Kept u) : Kept (.node .whileLoop line [test, body]) := by
  refine (part_clean test ht).script.bind fun c hc => (yields_body hb h).bind fun ss hss => ?_
  have hwhile := suited_whileLoop line hc hss.toStated
  rw [hss.hollow_eq] at hwhile
  exact yields_ok (by rwa [hollow])

theorem kept_foreach {e keyVar valueVar : Tree} (he : e.plain = true) (hb : Staged body)
    (h : ∀ u ∈ body.statements, Kept u) :
    Kept (.node .foreach line [e, keyVar, valueVar, body]) := by
  have hloop : ∀ {target : Script}, target.Bodiless → Yields
      (fun s => Suited (hollow (.node .foreach line [e, keyVar, valueVar, body])) [s]) (do
        let iter ← (part e).script
        return .forEach line target iter (← (part body).body)) := by
    intro target ht
    refine (part_clean e he).script.bind fun c hc => (yields_body hb h).bind fun ss hss => ?_
    refine yields_ok ?_
    rw [hollow, ← hss.hollow_eq]
    refine suited_body rfl (legal_of_body rfl rfl rfl hss.isStmt) ?_
    exact (hss.toSuited.cons hc).cons ht
  have hconvert : convert (.node .foreach line [e, keyVar, valueVar, body]) =
    foreach line (part e) (part keyVar) (part valueVar) (part body) := rfl
  rw [Kept, hconvert, foreach]
  split
  · refine yields_bind fun _ => yields_bind fun _ => hloop ?_
    exact Script.bodiless_leaf rfl rfl
  · refine yields_bind fun _ => yields_bind fun _ => yields_bind fun _ => ?_
    refine yields_bind fun _ => hloop ?_
    have hplace : ∀ id : Tree, (Script.loopTarget line id).Bodiless :=
      fun _ => Script.bodiless_leaf rfl rfl
    exact (Script.bodiless_iff rfl).mpr (by simp [children, hplace])

theorem kept_doWhile (ht : test.plain = true) (hb : Staged body)
    (h : ∀ u ∈ body.statements, Kept u) : Kept (.node .doWhile line [body, test]) := by
  have hconvert : convert (.node .doWhile line [body, test]) =
    doWhile line (part body) (part test) := rfl
  rw [Kept, hconvert, doWhile, deblock_staged hb, hollow_doWhile]
  refine (suite_of_kept h).bind fun ss hss => (part_clean test ht).script.bind fun c hc => ?_
  have hnot : (Script.unaryOp line .not c).Bodiless :=
    (Script.bodiless_iff rfl).mpr (by simpa [children] using hc)
  have hbreak : Stated false [.ifElse line (.unaryOp line .not c) [.breakLoop line] []] := by
    have hlegal : Legal (.ifElse line (.unaryOp line .not c) [.breakLoop line] []) :=
      legal_of_body rfl rfl rfl (by simp [Script.isStmt])
    have hchildren : Suited false [.unaryOp line .not c, .breakLoop line] :=
      suited_bodiless (by simpa [hnot] using Script.bodiless_leaf rfl rfl)
    have hsuited := suited_body rfl hlegal hchildren
    exact ⟨hsuited, by simp [Script.isStmt]⟩
  have hloop := suited_whileLoop line (c := always) (Script.bodiless_leaf rfl rfl)
    (hss.toStated.append hbreak)
  rw [List.isEmpty_eq_false_iff.mpr (by simp), Bool.false_or, Bool.or_false] at hloop
  exact yields_ok hloop

/-- What is appended to a body, if that can be done, is the list that there is. -/
theorem append_orNothing (ts : List Tree) (count : Tree) :
    Yields (· = part (.list (ts ++ count.row)))
      ((part (.list ts)).append (part count).orNothing) := by
  have hlist : ∀ us : List Tree, (part (.list ts)).append (part (.list us)) =
      .ok (part (.list (ts ++ us))) := by
    intro us
    have happend : (part (.list ts)).append (part (.list us)) =
      .ok (Part.ofList (partAll ts ++ partAll us)) := rfl
    rw [happend, part, partAll_eq_map, partAll_eq_map, partAll_eq_map, List.map_append]
  unfold Part.orNothing
  split
  · cases count with
    | list us => exact hlist us ▸ yields_ok rfl
    | null | bool | int | float | text | node => exact yields_error _
  · rename_i hfalse
    have hrow : count.row = [] := by
      cases count with
      | list us =>
        cases us with
        | nil => rfl
        | cons => exact absurd rfl hfalse
      | null | bool | int | float | text | node => rfl
    have hnothing : (part (.list ts)).append (Part.ofList []) = _ := hlist []
    rw [hnothing, hrow]
    exact yields_ok rfl

theorem kept_forLoop {start count : Tree} (hs : start.plain = true) (ht : test.plain = true)
    (hc : count.plain = true) (hb : Staged body) (h : ∀ u ∈ body.statements, Kept u) :
    Kept (.node .forLoop line [start, test, count, body]) := by
  have hrow : ∀ u ∈ count.row, u.plain = true := by
    cases count with
    | list us => exact plain_list.mp hc
    | null | bool | int | float | text | node => simp [Tree.row]
  have hall : ∀ u ∈ body.statements ++ count.row, Kept u :=
    List.forall_mem_append.mpr ⟨h, fun u hu => kept_plain (hrow u hu)⟩
  have hhollow : (body.statements ++ count.row).any hollow = body.statements.any hollow := by
    have hfalse : count.row.any hollow = false :=
      List.any_eq_false.mpr fun u hu => by simp [hollow_of_plain (hrow u hu)]
    rw [List.any_append, hfalse, Bool.or_false]
  have halways : always.Bodiless := Script.bodiless_leaf rfl rfl
  -- The statements before the loop have no bodies, and stand in one with it.
  have hloop : ∀ {before : List Script} {condition : Script}, (∀ s ∈ before, s.Bodiless) →
      condition.Bodiless → Yields
        (fun s => Suited (hollow (.node .forLoop line [start, test, count, body])) [s]) (do
          let ss ← (part (.list (body.statements ++ count.row))).statements
          return block line
            (before.map Script.toStmt ++ [Script.whileLoop line condition ss])) := by
    intro before condition hbefore hcondition
    refine (suite_of_kept hall).bind fun ss hss => yields_ok ?_
    have hwhile := suited_whileLoop line hcondition hss.toStated
    have hblock := suited_block line
      ((suited_bodiless hbefore).toStmt.append ⟨hwhile, by simp [Script.isStmt]⟩)
    rw [hss.isEmpty_eq, hhollow, ← hollow_forLoop start test,
      List.isEmpty_eq_false_iff.mpr (by simp), Bool.false_or, Bool.false_or] at hblock
    exact hblock
  have hconvert : convert (.node .forLoop line [start, test, count, body]) =
    forLoop line (part start) (part test) (part count) (part body) := rfl
  have hbefore : Yields (fun ss => ∀ s ∈ ss, s.Bodiless) (part start).orNothing.scripts := by
    unfold Part.orNothing
    split
    · exact (part_clean start hs).scripts
    · exact yields_ok (by simp)
  rw [Kept, hconvert, forLoop, deblock_staged hb]
  generalize (part start).orNothing = p at hbefore
  cases hnull : (part test).isNull with
  | true =>
    refine (append_orNothing _ _).bind fun inner hinner => ?_
    subst hinner
    dsimp only
    cases p.tree with
    | list => exact hbefore.bind fun before hbefore => hloop hbefore halways
    | null | bool | int | float | text | node => exact yields_error _
  | false =>
    refine yields_bind fun n => ?_
    cases n == 1 with
    | false => exact yields_error _
    | true =>
      refine (append_orNothing _ _).bind fun inner hinner => ?_
      subst hinner
      dsimp only
      cases p.tree with
      | list =>
        refine hbefore.bind fun before hbefore => (part_clean test ht).items.bind fun qs hqs => ?_
        cases qs with
        | nil => exact hloop hbefore halways
        | cons q qs =>
          exact (hqs q List.mem_cons_self).script.bind fun c hc => hloop hbefore hc
      | null | bool | int | float | text | node => exact yields_error _

/-- The arms of a conditional, the last one first. -/
theorem yields_arms {as : List Arm} (hat : ∀ a ∈ as, a.test.plain = true)
    (hab : ∀ a ∈ as, Staged a.body) (ha : ∀ a ∈ as, ∀ u ∈ a.body.statements, Kept u)
    (hus : Stated b us) : Yields (Stated (b || as.any (·.body.hollow)))
      (arms line us (as.map fun a => part a.tree)) := by
  induction as generalizing b us with
  | nil => exact yields_ok (by simpa using hus)
  | cons a as ih =>
    obtain ⟨ht, hat⟩ := List.forall_mem_cons.mp hat
    obtain ⟨hb, hab⟩ := List.forall_mem_cons.mp hab
    obtain ⟨hk, ha⟩ := List.forall_mem_cons.mp ha
    refine (part_clean _ ht).script.bind fun c hc => (yields_body hb hk).bind fun ss hss => ?_
    have hrest := ih hat hab ha (stated_ifElse line hc hss hus)
    rwa [Bool.or_comm a.body.hollow, Bool.or_assoc] at hrest

theorem kept_ifElse {arms : List Arm} {last : Option (Option Int × Tree)}
    (ht : test.plain = true) (hb : Staged body) (h : ∀ u ∈ body.statements, Kept u)
    (hat : ∀ a ∈ arms, a.test.plain = true) (hab : ∀ a ∈ arms, Staged a.body)
    (ha : ∀ a ∈ arms, ∀ u ∈ a.body.statements, Kept u) (hlb : ∀ l ∈ last, Staged l.2)
    (hl : ∀ l ∈ last, ∀ u ∈ l.2.statements, Kept u) :
    Kept (.node .ifElse line [test, body, .list (arms.map Arm.tree), lastArm last]) := by
  have hconvert : convert (.node .ifElse line
      [test, body, .list (arms.map Arm.tree), lastArm last]) =
    ifElse line (part test) (part body) (part (.list (arms.map Arm.tree))) (part (lastArm last)) :=
    rfl
  have hparts : (partAll (arms.map Arm.tree)).reverse =
      arms.reverse.map fun a => part a.tree := by
    rw [partAll_eq_map, List.map_map, List.map_reverse]
    rfl
  have hhollow : hollow (.node .ifElse line
      [test, body, .list (arms.map Arm.tree), lastArm last]) =
      (body.hollow || (hollowLast (lastArm last) || arms.reverse.any (·.body.hollow))) := by
    rw [hollow, hollowArms_map, List.any_reverse, Bool.or_assoc, Bool.or_comm (arms.any _)]
  rw [Kept, hconvert, hhollow, ifElse]
  have hrest : ∀ {us : List Script}, Stated (hollowLast (lastArm last)) us → Yields
      (fun s => Suited (body.hollow || (hollowLast (lastArm last) ||
        arms.reverse.any (·.body.hollow))) [s]) (do
          let us ← Conversion.arms line us (partAll (arms.map Arm.tree)).reverse
          let c ← (part test).script
          return .ifElse line c (← (part body).body) us) := by
    intro us hus
    rw [hparts]
    refine (yields_arms ?_ ?_ ?_ hus).bind fun us hus => ?_
    · simpa using hat
    · simpa using hab
    · simpa using ha
    · refine (part_clean test ht).script.bind fun c hc => (yields_body hb h).bind fun ss hss => ?_
      exact yields_ok (stated_ifElse _ hc hss hus).toSuited
  cases last with
  | none => exact hrest ⟨suited_bodiless (by simp), by simp⟩
  | some l =>
    refine (yields_body (hlb l rfl) (hl l rfl)).bind fun us hus => hrest ?_
    rw [hollowLast_lastArm]
    exact hus.toStated

theorem kept_tryBlock {catches : List Catch} (h : ∀ t ∈ ts, Kept t)
    (hv : ∀ c ∈ catches, c.var.plain = true) (hc : ∀ c ∈ catches, ∀ t ∈ c.body, Kept t) :
    Kept (.node .tryBlock line [.list ts, .list (catches.map Catch.tree)]) := by
  have hhandler : ∀ c ∈ catches, Yields
      (fun s => Suited (c.body.isEmpty || c.body.any hollow) [s]) (do
        let var ← (part c.var).script
        let ss ← (part (.list c.body)).statements
        return Script.handler line (part c.name).tree var.store ss) := by
    intro c hmem
    refine (part_clean c.var (hv c hmem)).script.bind fun var hvar => ?_
    refine (suite_of_kept (hc c hmem)).bind fun ss hss => yields_ok ?_
    rw [← hss.isEmpty_eq]
    refine suited_body rfl (legal_of_body rfl rfl rfl hss.isStmt) ?_
    exact hss.toSuited.cons ((Script.Lenient.every_store fun _ h => h).mpr hvar)
  refine (suite_of_kept h).bind fun ss hss => ?_
  refine Yields.bind (Q := Suited (catches.any fun c => c.body.isEmpty || c.body.any hollow))
    ?_ fun handlers hh => yields_ok ?_
  · have hparts : (part (.list (catches.map Catch.tree))).parts = catches.map (part ∘ Catch.tree) :=
      (partAll_eq_map _).trans (List.map_map ..)
    rw [hparts, List.mapM_map]
    intro handlers hok
    refine (suited_mapM ?_ handlers hok).1
    exact hhandler
  · rw [hollow, hollowIn_eq_any, hollowCatches_map, ← hss.isEmpty_eq, Bool.or_assoc]
    exact suited_body rfl (legal_of_body rfl rfl rfl hss.isStmt) (hss.toSuited.append hh)

theorem parameters_bodiless {p : Part} (h : Clean p) :
    Yields (fun r => ∀ s ∈ r.2, s.Bodiless) (parameters p) := by
  refine h.items.bind fun qs hqs => ?_
  refine Yields.bind (Q := fun rs : List (Tree × Option Script) => ∀ r ∈ rs, ∀ s ∈ r.2, s.Bodiless)
    (.mapM fun q hq => ?_) fun rs hrs => ?_
  · refine yields_bind fun _ => yields_bind fun name => ?_
    refine ((hqs q hq).field "default" (by decide)).bind fun value hvalue => ?_
    split
    · exact yields_ok (by simp)
    · exact hvalue.script.bind fun s hs => yields_ok (by simpa using hs)
  · refine yields_ok ?_
    simp only [List.mem_filterMap, forall_exists_index, and_imp]
    exact fun s r hr hs => hrs r hr s hs

theorem yields_function {name : Tree} {first ps : List Tree} {isStatic : Bool}
    (hp : ∀ p ∈ ps, p.plain = true) (h : ∀ t ∈ ts, Kept t) :
    Yields (fun s => Suited (ts.any hollow) [s])
      (function line name first (part (.list ps)) (part (.list ts)) isStatic) := by
  have hparams : Clean (part (.list ps)) := part_clean _ (plain_list.mpr hp)
  refine (parameters_bodiless hparams).bind fun r hr => (suite_of_kept h).bind fun ss hss => ?_
  have hbody := hss.toStated.orPass line
  have hne := orPass_ne_nil line ss
  have hlegal : Legal
      (.functionDef line name (first ++ r.1) r.2 (Script.orPass line ss) isStatic) := by
    refine ⟨?_, fun _ hnil => hne (Option.some.inj hnil)⟩
    simpa [Script.body?, Script.alternative] using hbody.isStmt
  have hsuited := suited_body rfl hlegal ((suited_bodiless hr).append hbody.toSuited)
  rw [List.isEmpty_eq_false_iff.mpr hne, Bool.false_or, Bool.false_or] at hsuited
  exact yields_ok hsuited

theorem kept_function {name ref : Tree} {ps : List Tree} (hp : ∀ p ∈ ps, p.plain = true)
    (h : ∀ t ∈ ts, Kept t) : Kept (.node .function line [name, .list ps, .list ts, ref]) := by
  rw [Kept, hollow, hollowIn_eq_any]
  exact yields_function hp h

theorem kept_method {name modifiers ref : Tree} {ps : List Tree} (hp : ∀ p ∈ ps, p.plain = true)
    (h : ∀ t ∈ ts, Kept t) :
    Kept (.node .method line [name, modifiers, .list ps, .list ts, ref]) := by
  rw [Kept, hollow, hollowIn_eq_any]
  exact yields_bind fun _ => yields_function hp h

theorem every_renameConstructor {P : Script → Prop} {name : Tree}
    (hP : ∀ l n n' ps ds body m,
      P (.functionDef l n ps ds body m) ↔ P (.functionDef l n' ps ds body m)) :
    Every P (renameConstructor name s) ↔ Every P s := by
  unfold renameConstructor
  split
  · split
    · rw [Script.every_iff, Script.every_iff, hP]
      rfl
    · rfl
  · rfl

theorem isStmt_renameConstructor (name : Tree) (s : Script) :
    (renameConstructor name s).isStmt = s.isStmt := by
  unfold renameConstructor
  split
  · split <;> rfl
  · rfl

theorem kept_classDecl {name type ext imp : Tree} {ns : List Tree} (h : ∀ n ∈ ns, Kept n) :
    Kept (.node .classDecl line [name, type, ext, imp, .list ns]) := by
  rw [Kept, hollow, hollowIn_eq_any]
  refine (suite_of_kept h).bind fun ss hss => yields_ok ?_
  have hrenamed : Stated (ns.any hollow) (ss.map (renameConstructor name)) := by
    refine ⟨hss.toSuited.map (fun s => every_renameConstructor fun _ _ _ _ _ _ _ => Iff.rfl)
      (fun s => every_renameConstructor fun _ _ _ _ _ _ _ => Iff.rfl), ?_⟩
    rw [List.forall_mem_map]
    exact fun s hs => (isStmt_renameConstructor name s).trans (hss.isStmt s hs)
  have hbody := hrenamed.orPass line
  have hne := orPass_ne_nil line (ss.map (renameConstructor name))
  have hsuited : ∀ base : Tree, Suited (ns.any hollow)
      [.classDef line name base (Script.orPass line (ss.map (renameConstructor name)))] := by
    intro base
    have hlegal : Legal (.classDef line name base
        (Script.orPass line (ss.map (renameConstructor name)))) := by
      refine ⟨?_, fun _ hnil => hne (Option.some.inj hnil)⟩
      simpa [Script.body?, Script.alternative] using hbody.isStmt
    have hclass := suited_body rfl hlegal hbody.toSuited
    rwa [List.isEmpty_eq_false_iff.mpr hne, Bool.false_or] at hclass
  simpa only [part_tree] using hsuited _

/-- The statements for which a staged one stands are kept. -/
theorem kept_of_staged (h : Staged t) : ∀ u ∈ t.statements, Kept u := by
  induction h with
  | @plain t h =>
    cases t with
    | node k line fs =>
      rw [statements_node (ne_block_of_plain h), List.forall_mem_singleton]
      exact kept_plain h
    | null | bool | int | float | text | list =>
      simpa [Tree.statements] using kept_plain h
  | @inert k line fs h =>
    have hfallback : convert (.node k line fs) = .ok (Part.fallback line (.node k line fs)) :=
      convertNode_inert _ (.inr h) _
    rw [statements_node (ne_block_of_inert h), List.forall_mem_singleton, Kept, hfallback,
      hollow_of_inert h]
    exact yields_ok (suited_bodiless (by simpa using bodiless_fallback _ _))
  | block _ ih => exact fun u hu => kept_of_statements (ih u hu)
  | ifElse ht hb hat hab hl ih iha ihl =>
    simpa [Tree.statements] using kept_ifElse ht hb ih hat hab iha hl ihl
  | whileLoop ht hb ih => simpa [Tree.statements] using kept_whileLoop ht hb ih
  | doWhile ht hb ih => simpa [Tree.statements] using kept_doWhile ht hb ih
  | forLoop hs ht hc hb ih => simpa [Tree.statements] using kept_forLoop hs ht hc hb ih
  | foreach he hb ih => simpa [Tree.statements] using kept_foreach he hb ih
  | tryBlock _ hv _ ih ihc =>
    simpa [Tree.statements] using kept_tryBlock (fun t ht => kept_of_statements (ih t ht)) hv
      fun c hc t ht => kept_of_statements (ihc c hc t ht)
  | function hp _ ih =>
    simpa [Tree.statements] using kept_function hp fun t ht => kept_of_statements (ih t ht)
  | method hp _ ih =>
    simpa [Tree.statements] using kept_method hp fun t ht => kept_of_statements (ih t ht)
  | classDecl _ ih =>
    simpa [Tree.statements] using kept_classDecl fun t ht => kept_of_statements (ih t ht)

end Conversion

open Docblock.Conversion (convert)

variable {f g : Filter} {file : Option String} {text : List Char} {ts : List Tree} {t : Tree}
  {s : Script}

theorem parse_staged (h : f.parse file text = (.ok ts, g)) : ∀ t ∈ ts, Staged t := by
  obtain ⟨-, -, d, -, hd⟩ := parse_ok h
  exact (d.holds Grammar.keeps_staged hd).2

theorem suited_of_parse (h : f.parse file text = (.ok ts, g)) (ht : t ∈ ts)
    (hs : convert t = .ok s) : Conversion.Suited t.hollow [s] :=
  Conversion.kept_of_statements (Conversion.kept_of_staged (parse_staged h t ht)) s hs

/-- In the script of a statement of a source, a body and what is done in its place hold statements
only, and a function or a class is never empty. No body in it is empty if and only if the statement
has no empty body, functions and classes apart. -/
theorem parse_suites (h : f.parse file text = (.ok ts, g)) (ht : t ∈ ts)
    (hs : convert t = .ok s) :
    (∀ n, s.Has n → (∀ c ∈ n.body?.getD [] ++ n.alternative, c.isStmt = true) ∧
      (n.isDefinition = true → n.body? ≠ some [])) ∧
    ((∀ n, s.Has n → n.body? ≠ some []) ↔ t.hollow = false) := by
  have hsuited := suited_of_parse h ht hs
  refine ⟨hsuited.legal s (List.mem_singleton_self s), ?_⟩
  rw [← hsuited.full, List.forall_mem_singleton]
  rfl

/-- Nothing is empty in the script of a class with an empty function and a loop of which only the
step is there. -/
theorem parse_suites_class :
    ∃ ts g, (Filter.fresh []).parse none ("<?php class A \x7b function f() \x7b\x7d " ++
        "function g() \x7b for (;; $i++) \x7b\x7d \x7d \x7d").toList = (.ok ts, g) ∧
      ∃ t ∈ ts, ∃ s, convert t = .ok s ∧ ∀ n, s.Has n → n.body? ≠ some [] := by
  obtain ⟨ts, g, h, hany⟩ := exists_parse_any (Filter.fresh []) none
    ("<?php class A \x7b function f() \x7b\x7d " ++
      "function g() \x7b for (;; $i++) \x7b\x7d \x7d \x7d").toList
    (p := fun ts => ts.any fun t => (convert t).toBool && !t.hollow)
    (by rw [String.toList_append, String.toList_ofList, String.toList_ofList]; decide +kernel)
  obtain ⟨t, ht, hcheck⟩ := List.any_eq_true.mp hany
  rw [Bool.and_eq_true, Bool.not_eq_true'] at hcheck
  cases hs : convert t with
  | error e => simp [hs, Except.toBool] at hcheck
  | ok s => exact ⟨ts, g, h, t, ht, s, hs, (parse_suites h ht hs).2.mpr hcheck.2⟩

/-- The body of a loop is left empty. -/
theorem empty_while :
    ∃ ts g, (Filter.fresh []).parse none "<?php while ($a) \x7b\x7d".toList = (.ok ts, g) ∧
      ∃ t ∈ ts, ∃ s, convert t = .ok s ∧ ∃ n, s.Has n ∧ n.body? = some [] := by
  obtain ⟨ts, g, h, hany⟩ := exists_parse_any (Filter.fresh []) none
    "<?php while ($a) \x7b\x7d".toList
    (p := fun ts => ts.any fun t => (convert t).toBool && t.hollow)
    (by rw [String.toList_ofList]; decide +kernel)
  obtain ⟨t, ht, hcheck⟩ := List.any_eq_true.mp hany
  rw [Bool.and_eq_true] at hcheck
  cases hs : convert t with
  | error e => simp [hs, Except.toBool] at hcheck
  | ok s =>
    have hfull := (suited_of_parse h ht hs).full
    rw [hcheck.2] at hfull
    simp only [List.forall_mem_singleton, Script.Every, Script.Full, reduceCtorEq, iff_false,
      not_forall, not_not] at hfull
    obtain ⟨n, hn, hempty⟩ := hfull
    exact ⟨ts, g, h, t, ht, s, hs, n, hn, hempty⟩

end Docblock
