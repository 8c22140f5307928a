import Docblock.Proofs.Script.Statement

/-! Loops and conditionals: a script makes the events of the statement that it stands for. -/
namespace Docblock

open Docblock.Flow Docblock.Flow.Meaning

namespace Conversion

open Docblock.Tree

variable {t : Tree} {ts us : List Tree} {P : Tree → Prop} {line : Option Int}

theorem perform_block (answers : Nat → Bool) (rounds : Nat) (ss : List Script) :
    (block line ss).perform answers rounds = Script.performAll answers rounds ss := rfl

/-- A statement has a script, and that makes the same events. -/
def Sound (t : Tree) : Prop :=
  ∃ s, convert t = .ok s ∧
    ∀ answers rounds, (t.perform answers rounds).Matches Names (s.perform answers rounds)

/-- Statements in a row have scripts, and those make the same events. -/
def SoundAll (ts : List Tree) : Prop :=
  ∃ ss, (part (.list ts)).statements = .ok ss ∧ ∀ answers rounds,
    (performAll answers rounds ts).Matches Names (Script.performAll answers rounds ss)

theorem partAll_eq_map (ts : List Tree) : partAll ts = ts.map part := by
  induction ts with
  | nil => rfl
  | cons t ts ih => rw [partAll, ih, List.map_cons]

theorem statements_part (ts : List Tree) :
    (part (.list ts)).statements = (ts.mapM convert).map (List.map Script.toStmt) := by
  have hscripts : (part (.list ts)).scripts = (partAll ts).mapM Part.script := rfl
  rw [Part.statements, hscripts, partAll_eq_map, List.mapM_map]
  rfl

theorem soundAll_nil : SoundAll [] := ⟨[], rfl, fun _ _ => matches_leave _⟩

theorem Sound.singleton (h : Sound t) : SoundAll [t] := by
  obtain ⟨s, hs, hm⟩ := h
  refine ⟨[s.toStmt], ?_, fun answers rounds => ?_⟩
  · rw [statements_part, List.mapM_cons, hs]
    rfl
  · simp only [Tree.performAll, Script.performAll, andThen_skip, Script.perform_toStmt]
    exact hm answers rounds

theorem SoundAll.append (h : SoundAll ts) (h' : SoundAll us) : SoundAll (ts ++ us) := by
  obtain ⟨as, has, hm⟩ := h
  obtain ⟨bs, hbs, hm'⟩ := h'
  rw [statements_part] at has hbs
  obtain ⟨ss, hss, rfl⟩ := ok_of_map has
  obtain ⟨ss', hss', rfl⟩ := ok_of_map hbs
  refine ⟨(ss ++ ss').map Script.toStmt, ?_, fun answers rounds => ?_⟩
  · rw [statements_part, List.mapM_append, hss, hss']
    rfl
  · rw [List.map_append, Script.performAll_append, Tree.performAll_append]
    exact (hm answers rounds).andThen (hm' answers rounds)

theorem soundAll_of_forall (h : ∀ t ∈ ts, Sound t) : SoundAll ts := by
  induction ts with
  | nil => exact soundAll_nil
  | cons t ts ih =>
    obtain ⟨ht, hts⟩ := List.forall_mem_cons.mp h
    exact ht.singleton.append (ih hts)

theorem sound_block (h : SoundAll ts) : Sound (.node .block line [.list ts]) := by
  obtain ⟨ss, hs, hm⟩ := h
  refine ⟨block line ss, ?_, fun answers rounds => ?_⟩
  · have hconvert : convert (.node .block line [.list ts]) =
      (part (.list ts)).statements >>= fun ss => pure (block line ss) := rfl
    rw [hconvert, hs]
    rfl
  · rw [perform_block]
    simpa only [Tree.perform] using hm answers rounds

/-- A sound statement is sound as the body of a loop or of an arm. -/
theorem Sound.statements (h : Sound t) : SoundAll t.statements := by
  unfold Tree.statements
  split
  · rename_i line ts
    obtain ⟨s, hs, hm⟩ := h
    obtain ⟨ss, hss, hs⟩ := ok_of_bind hs
    cases hs
    refine ⟨ss, hss, fun answers rounds => ?_⟩
    have hblock := hm answers rounds
    rwa [perform_block, Tree.perform, Tree.perform] at hblock
  · exact h.singleton

theorem deblock_part (hP : ∀ e, P e → e.isExpression = true) (h : ControlFlow P t) :
    (part t).deblock = part (.list t.statements) := by
  cases h with
  | expression he =>
    have hexpr := hP _ he
    unfold Tree.statements
    split
    · cases hexpr
    · unfold Part.deblock
      split
      · rename_i nodes hblock _
        rw [part_tree] at hblock
        subst hblock
        cases hexpr
      · rfl
  | _ => rfl

theorem orNothing_part (h : Row P t) : (part t).orNothing = part (.list t.row) := by
  cases h with
  | nothing => rfl
  | @list es h => cases es <;> rfl

/-- An expression with a script. -/
def Convertible (e : Tree) : Prop := e.isExpression = true ∧ ∃ s, convert e = .ok s

variable {e test body start count : Tree}

theorem sound_expression (h : Convertible e) : Sound e := by
  obtain ⟨he, s, hs⟩ := h
  have hstands := convert_stands he hs
  refine ⟨s, hs, fun answers rounds => ?_⟩
  rw [perform_expression he, Script.perform_of_not_isControl hstands.expression]
  exact matches_evaluate hstands.event

/-- The script of a test goes on where the test does. -/
theorem matches_test {answers : Nat → Bool} {s : Script} {m n : Meaning Tree}
    {m' n' : Meaning Script} (ht : Convertible test) (hz : test.isZero = false)
    (hs : convert test = .ok s) (hm : m.Matches Names m') (hn : n.Matches Names n') :
    (branch answers test.verdict m n).Matches Names (branch answers s.verdict m' n') := by
  have hstands := convert_stands ht.1 hs
  exact Matches.branch hstands.event (hstands.truth hz) hm hn

theorem body_part (hb : ControlFlow Convertible body) :
    (part body).body = (part (.list body.statements)).statements := by
  rw [Part.body, deblock_part (fun _ => And.left) hb]

theorem sound_while (ht : Convertible test) (hz : test.isZero = false)
    (hb : ControlFlow Convertible body) (h : Sound body) :
    Sound (.node .whileLoop line [test, body]) := by
  obtain ⟨s, hs⟩ := ht.2
  obtain ⟨ss, hss, hm⟩ := h.statements
  refine ⟨.whileLoop line s ss, ?_, fun answers rounds => ?_⟩
  · have hconvert : convert (.node .whileLoop line [test, body]) =
      convert test >>= fun s => (part body).body >>= fun ss => pure (.whileLoop line s ss) := rfl
    rw [hconvert, hs, body_part hb, hss]
    rfl
  · rw [Tree.perform, Script.perform, ← performAll_statements]
    exact (matches_test ht hz hs (hm answers rounds) (matches_leave _)).loop rounds

theorem sound_doWhile (ht : Convertible test) (hz : test.isZero = false)
    (hb : ControlFlow Convertible body) (hc : body.continues = false) (h : Sound body) :
    Sound (.node .doWhile line [body, test]) := by
  obtain ⟨s, hs⟩ := ht.2
  obtain ⟨ss, hss, hm⟩ := h.statements
  refine ⟨.whileLoop line always
    (ss ++ [Script.ifElse line (.unaryOp line .not s) [.breakLoop line] []]), ?_,
    fun answers rounds => ?_⟩
  · have hconvert : convert (.node .doWhile line [body, test]) =
      doWhile line (part body) (part test) := rfl
    have hscript : (part test).script = .ok s := hs
    rw [hconvert, doWhile, deblock_part (fun _ => And.left) hb, part_tree]
    simp only [hss, hscript]
    rfl
  · -- The negated test that breaks off the loop is the test that goes on with it.
    have hlast : Script.performAll answers rounds
        [.ifElse line (.unaryOp line .not s) [.breakLoop line] []] =
          branch answers s.verdict skip (leave .byBreak) := by
      simp only [Script.performAll, Script.perform, Script.verdict, branch_negate, andThen_skip]
    have hround : Script.perform answers rounds (.whileLoop line always
        (ss ++ [Script.ifElse line (.unaryOp line .not s) [.breakLoop line] []])) =
          loop ((Script.performAll answers rounds ss).andThen
            (branch answers s.verdict skip (leave .byBreak))) rounds := by
      rw [← hlast, ← Script.performAll_append]
      rfl
    rw [hround, Tree.perform, resume_staying (staying_perform (fun _ => And.left) hb hc),
      ← performAll_statements]
    exact ((hm answers rounds).andThen
      (matches_test ht hz hs (matches_leave _) (matches_leave _))).loop rounds

theorem soundAll_row (h : Row Convertible t) : SoundAll t.row := by
  cases h with
  | nothing => exact soundAll_nil
  | list h => exact soundAll_of_forall fun e he => sound_expression (h e he)

/-- The script of the test of a counting loop. -/
inductive Condition : Tree → Script → Prop
  | nothing : Condition .null always
  | single {e : Tree} {s : Script} (h : convert e = .ok s) : Condition (.list [e]) s

theorem convert_for {before inner : List Script} {condition : Script} (hs : Row Convertible start)
    (hc : Row Convertible count) (hb : ControlFlow Convertible body)
    (hbefore : (part (.list start.row)).statements = .ok before) (ht : Condition test condition)
    (hinner : (part (.list (body.statements ++ count.row))).statements = .ok inner) :
    convert (.node .forLoop line [start, test, count, body]) =
      .ok (block line (before ++ [Script.whileLoop line condition inner])) := by
  have hconvert : convert (.node .forLoop line [start, test, count, body]) =
    forLoop line (part start) (part test) (part count) (part body) := rfl
  have happend : (part (.list body.statements)).append (part (.list count.row)) =
      .ok (part (.list (body.statements ++ count.row))) := by
    have hlists : (part (.list body.statements)).append (part (.list count.row)) =
      .ok (Part.ofList (partAll body.statements ++ partAll count.row)) := rfl
    rw [hlists, partAll_eq_map, partAll_eq_map, ← List.map_append, ← partAll_eq_map]
    rfl
  obtain ⟨scripts, hscripts, hmap⟩ := ok_of_bind hbefore
  cases hmap
  rw [hconvert, forLoop, deblock_part (fun _ => And.left) hb, orNothing_part hc, orNothing_part hs,
    happend]
  simp only [part_tree, hscripts]
  cases ht with
  | nothing =>
    change ((part (.list (body.statements ++ count.row))).statements >>= fun inner =>
      pure (block line (scripts.map Script.toStmt ++ [Script.whileLoop line always inner]))) = _
    rw [hinner]
    rfl
  | @single e condition h =>
    change (convert e >>= fun condition =>
      (part (.list (body.statements ++ count.row))).statements >>= fun inner => pure
        (block line (scripts.map Script.toStmt ++ [Script.whileLoop line condition inner]))) = _
    rw [h, hinner]
    rfl

/-- The script of the test of a counting loop goes on where the loop does. -/
theorem condition_of_test (ht : Test Convertible test) (hz : test.isZeroRound = false) :
    ∃ condition, Condition test condition ∧
      test.roundVerdict.Matches Names condition.verdict ∧
      test.roundVerdict.truth? = condition.verdict.truth? := by
  cases ht with
  | nothing => exact ⟨always, .nothing, .known _ _, rfl⟩
  | single h =>
    obtain ⟨s, hs⟩ := h.2
    have hstands := convert_stands h.1 hs
    exact ⟨s, .single hs, hstands.event, hstands.truth hz⟩

/-- Where no round is broken off for the next one, or nothing is left to do in it then, a step may
stand at the end of the body. -/
theorem loop_count {answers : Nat → Bool} {rounds : Nat} {v : Verdict Tree}
    (hc : Row Convertible count) (hb : ControlFlow Convertible body)
    (hstay : (count.isEmptyList || !body.continues) = true) :
    loop (branch answers v ((body.perform answers rounds).resume.andThen
      (count.perform answers rounds)) (leave .byBreak)) rounds =
    loop (branch answers v (performAll answers rounds (body.statements ++ count.row))
      (leave .byBreak)) rounds := by
  rw [Tree.performAll_append, performAll_statements, performAll_row hc]
  cases hcont : body.continues with
  | false => rw [resume_staying (staying_perform (fun _ => And.left) hb hcont)]
  | true =>
    -- Without a step, a round that is broken off ends as the loop ends it.
    have hempty : count.perform answers rounds = skip := by
      rw [hcont, Bool.not_true, Bool.or_false] at hstay
      unfold isEmptyList at hstay
      split at hstay
      · rw [Tree.perform]
      · rw [Tree.perform, Tree.performAll]
      · cases hstay
    have hround : branch answers v (body.perform answers rounds).resume (leave .byBreak) =
        (branch answers v (body.perform answers rounds) (leave .byBreak)).resume := by
      rw [resume_branch, resume_staying (staying_leave (by decide))]
    rw [hempty, andThen_skip, andThen_skip, hround, loop_resume]

theorem sound_for (hs : Row Convertible start) (ht : Test Convertible test)
    (hz : test.isZeroRound = false) (hc : Row Convertible count)
    (hb : ControlFlow Convertible body) (hstay : (count.isEmptyList || !body.continues) = true)
    (h : Sound body) : Sound (.node .forLoop line [start, test, count, body]) := by
  obtain ⟨before, hbefore, hstart⟩ := soundAll_row hs
  obtain ⟨inner, hinner, hbody⟩ := h.statements.append (soundAll_row hc)
  obtain ⟨condition, hcondition, hv, htruth⟩ := condition_of_test ht hz
  refine ⟨_, convert_for hs hc hb hbefore hcondition hinner, fun answers rounds => ?_⟩
  rw [perform_block, Script.performAll_append, Script.performAll, Script.performAll, andThen_skip,
    Script.perform, Tree.perform, loop_count hc hb hstay, ← performAll_row hs]
  exact (hstart answers rounds).andThen
    ((Matches.branch hv htruth (hbody answers rounds) (matches_leave _)).loop rounds)

theorem arms_append (line : Option Int) (orElse : List Script) (ps qs : List Part) :
    arms line orElse (ps ++ qs) = arms line orElse ps >>= fun ss => arms line ss qs := by
  induction ps generalizing orElse with
  | nil => rfl
  | cons p ps ih =>
    simp only [List.cons_append, arms, ih, bind_assoc]

/-- The arms of a conditional, in order. -/
theorem sound_arms (line : Option Int) {as : List Arm} {rest : List Script}
    {last : (Nat → Bool) → Nat → Meaning Tree}
    (hrest : ∀ answers rounds, (last answers rounds).Matches Names
      (Script.performAll answers rounds rest))
    (ht : ∀ a ∈ as, Convertible a.test) (hz : ∀ a ∈ as, a.test.isZero = false)
    (hb : ∀ a ∈ as, ControlFlow Convertible a.body) (h : ∀ a ∈ as, Sound a.body) :
    ∃ ss, arms line rest ((as.map Arm.tree).map part).reverse = .ok ss ∧ ∀ answers rounds,
      (performArms answers rounds (last answers rounds) (as.map Arm.tree)).Matches Names
        (Script.performAll answers rounds ss) := by
  induction as with
  | nil => exact ⟨rest, rfl, hrest⟩
  | cons a as ih =>
    obtain ⟨hta, htas⟩ := List.forall_mem_cons.mp ht
    obtain ⟨hza, hzas⟩ := List.forall_mem_cons.mp hz
    obtain ⟨hba, hbas⟩ := List.forall_mem_cons.mp hb
    obtain ⟨ha, has⟩ := List.forall_mem_cons.mp h
    obtain ⟨ss, hss, hm⟩ := ih htas hzas hbas has
    obtain ⟨s, hs⟩ := hta.2
    obtain ⟨us, hus, hbody⟩ := ha.statements
    refine ⟨[.ifElse line s us ss], ?_, fun answers rounds => ?_⟩
    · have hone : arms line ss [part a.tree] =
        convert a.test >>= fun s => (part a.body).body >>= fun us =>
          pure [.ifElse line s us ss] := rfl
      rw [List.map_cons, List.map_cons, List.reverse_cons, arms_append, hss]
      change arms line ss [part a.tree] = _
      rw [hone, hs, body_part hba, hus]
      rfl
    · rw [Script.performAll, Script.performAll, andThen_skip, Script.perform, List.map_cons,
        Arm.tree, performArms, ← performAll_statements]
      exact matches_test hta hza hs (hbody answers rounds) (hm answers rounds)

/-- The scripts of the last arm, or none. -/
def lastScripts (last : Part) : Except Error (List Script) := do
  if last.tree.truthy then (← last.field "node").body else .ok []

theorem sound_last {last : Option (Option Int × Tree)}
    (hb : ∀ l ∈ last, ControlFlow Convertible l.2) (h : ∀ l ∈ last, Sound l.2) :
    ∃ rest, lastScripts (part (lastArm last)) = .ok rest ∧ ∀ answers rounds,
      ((lastArm last).perform answers rounds).Matches Names
        (Script.performAll answers rounds rest) := by
  cases last with
  | none => exact ⟨[], rfl, fun _ _ => matches_leave _⟩
  | some l =>
    obtain ⟨line, body⟩ := l
    obtain ⟨ss, hss, hm⟩ := (h _ rfl).statements
    refine ⟨ss, ?_, fun answers rounds => ?_⟩
    · rw [← hss, ← body_part (hb _ rfl)]
      rfl
    · rw [lastArm, Tree.perform, ← performAll_statements]
      exact hm answers rounds

theorem sound_if {as : List Arm} {last : Option (Option Int × Tree)} (ht : Convertible test)
    (hz : test.isZero = false) (hb : ControlFlow Convertible body) (h : Sound body)
    (hat : ∀ a ∈ as, Convertible a.test) (haz : ∀ a ∈ as, a.test.isZero = false)
    (hab : ∀ a ∈ as, ControlFlow Convertible a.body) (ha : ∀ a ∈ as, Sound a.body)
    (hlb : ∀ l ∈ last, ControlFlow Convertible l.2) (hl : ∀ l ∈ last, Sound l.2) :
    Sound (.node .ifElse line [test, body, .list (as.map Arm.tree), lastArm last]) := by
  obtain ⟨s, hs⟩ := ht.2
  obtain ⟨ss, hss, hbody⟩ := h.statements
  obtain ⟨rest, hrest, hlast⟩ := sound_last hlb hl
  obtain ⟨us, hus, harms⟩ := sound_arms line hlast hat haz hab ha
  refine ⟨.ifElse line s ss us, ?_, fun answers rounds => ?_⟩
  · have hconvert :
        convert (.node .ifElse line [test, body, .list (as.map Arm.tree), lastArm last]) =
      lastScripts (part (lastArm last)) >>= fun rest =>
        arms line rest (partAll (as.map Arm.tree)).reverse >>= fun us =>
          convert test >>= fun s => (part body).body >>= fun ss =>
            pure (.ifElse line s ss us) := by
      cases last <;> rfl
    rw [hconvert, hrest, partAll_eq_map]
    change (arms line rest ((as.map Arm.tree).map part).reverse >>= _) = _
    rw [hus, hs, body_part hb, hss]
    rfl
  · rw [Tree.perform, Script.perform, ← performAll_statements]
    exact matches_test ht hz hs (hbody answers rounds) (harms answers rounds)

/-- The script of a statement makes the events of the statement, whatever the answers to them, if
no round is broken off where a step or a test is left to make in it. -/
theorem perform_convert (h : ControlFlow Convertible t) (hs : t.steady = true) :
    ∃ s, convert t = .ok s ∧
      ∀ answers rounds, (t.perform answers rounds).Matches Names (s.perform answers rounds) := by
  change Sound t
  induction h with
  | nothing => exact ⟨_, rfl, fun _ _ => matches_leave _⟩
  | expression he => exact sound_expression he
  | block _ ih =>
    simp only [steady, steadyAll_eq_all, List.all_eq_true] at hs
    exact sound_block (soundAll_of_forall fun t ht => ih t ht (hs t ht))
  | @ifElse line test body as last ht hb hat hab hl ihb iha ihl =>
    simp only [steady, steadyAll_eq_all, List.all_map, Bool.and_eq_true, Bool.not_eq_true',
      List.all_eq_true] at hs
    obtain ⟨⟨⟨hz, hsb⟩, hsa⟩, hsl⟩ := hs
    have harm : ∀ a ∈ as, a.test.isZero = false ∧ a.body.steady = true := by
      intro a ha
      simpa only [Function.comp_apply, Arm.tree, steady, Bool.and_eq_true, Bool.not_eq_true']
        using hsa a ha
    refine sound_if ht hz hb (ihb hsb) hat (fun a ha => (harm a ha).1) hab
      (fun a ha => iha a ha (harm a ha).2) hl fun l hm => ihl l hm ?_
    cases hm
    exact hsl
  | whileLoop ht hb ih =>
    simp only [steady, Bool.and_eq_true, Bool.not_eq_true'] at hs
    exact sound_while ht hs.1 hb (ih hs.2)
  | doWhile ht hb ih =>
    simp only [steady, Bool.and_eq_true, Bool.not_eq_true'] at hs
    obtain ⟨⟨hz, hsb⟩, hc⟩ := hs
    exact sound_doWhile ht hz hb hc (ih hsb)
  | forLoop hstart ht hc hb ih =>
    simp only [steady, Bool.and_eq_true, Bool.not_eq_true'] at hs
    obtain ⟨⟨hz, hsb⟩, hstay⟩ := hs
    exact sound_for hstart ht hz hc hb hstay (ih hsb)
  | breakLoop => exact ⟨_, rfl, fun _ _ => matches_leave _⟩
  | continueLoop => exact ⟨_, rfl, fun _ _ => matches_leave _⟩

/-- The value of a variable. -/
def reading (name : String) : Tree := .node .var none [.text name]

theorem convertible_reading (name : String) : Convertible (reading name) := by
  refine ⟨rfl, ?_⟩
  have hconvert : convert (reading name) = readVar none (.text name) := rfl
  rw [hconvert, readVar, tail]
  simp only [bind, Except.bind]
  split <;> exact ⟨_, rfl⟩

/-- Adds one to a variable. -/
def increment (name : String) : Tree := .node .postIncDec none [.text "++", reading name]

theorem convertible_increment : Convertible (increment "$i") := ⟨rfl, _, rfl⟩

/-- A loop with a step, left from within a conditional, around a loop whose rounds are broken off
and one with its test at the end. -/
def nestedLoops : Tree :=
  .node .forLoop none [.null, .list [reading "$c"], .list [increment "$i"],
    .node .block none [.list [
      .node .ifElse none [reading "$d", .node .breakLoop none [.null],
        .list [.node .elseIf none [.node .unaryOp none [.text "!", .bool false],
          .node .whileLoop none [reading "$e", .node .continueLoop none [.null]]]],
        .node .elseArm none [reading "$f"]],
      .node .doWhile none [.null, reading "$g"]]]]

theorem controlFlow_nestedLoops : ControlFlow Convertible nestedLoops := by
  have hnot : Convertible (.node .unaryOp none [.text "!", .bool false]) := ⟨rfl, _, rfl⟩
  refine .forLoop .nothing (.single (convertible_reading _)) (.list ?_) (.block ?_)
  · simp only [List.forall_mem_singleton]
    exact convertible_increment
  · simp only [List.forall_mem_cons, List.not_mem_nil, false_imp_iff, implies_true, and_true]
    constructor
    · refine @ControlFlow.ifElse _ none _ _ [⟨none, _, _⟩] (some (none, _))
        (convertible_reading _) .breakLoop ?_ ?_ ?_
      · simp only [List.forall_mem_singleton]
        exact hnot
      · simp only [List.forall_mem_singleton]
        exact .whileLoop (convertible_reading _) .continueLoop
      · intro l hl
        cases hl
        exact .expression (convertible_reading _)
    · exact .doWhile (convertible_reading _) .nothing

theorem perform_convert_nestedLoops :
    nestedLoops.steady = true ∧ ∃ s, convert nestedLoops = .ok s ∧ ∀ answers rounds,
      (nestedLoops.perform answers rounds).Matches Names (s.perform answers rounds) :=
  ⟨by decide, perform_convert controlFlow_nestedLoops (by decide)⟩

/-- A loop with a step whose rounds are all broken off. -/
def brokenRounds : Tree :=
  .node .forLoop none [.null, .list [reading "$c"], .list [increment "$i"],
    .node .continueLoop none [.null]]

theorem controlFlow_brokenRounds : ControlFlow Convertible brokenRounds := by
  refine .forLoop .nothing (.single (convertible_reading _)) (.list ?_) .continueLoop
  simp only [List.forall_mem_singleton]
  exact convertible_increment

/-- A round that is broken off makes the step of the loop, but not in the script. -/
theorem perform_convert_not_step :
    ¬ ∀ t, ControlFlow Convertible t → ∃ s, convert t = .ok s ∧
      ∀ answers rounds, (t.perform answers rounds).Matches Names (s.perform answers rounds) := by
  intro h
  obtain ⟨s, hs, hm⟩ := h brokenRounds controlFlow_brokenRounds
  cases hs
  have hlength := (hm (· == 0) 2 0).1.length_eq
  revert hlength
  decide

end Conversion
end Docblock
