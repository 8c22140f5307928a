import Docblock.Proofs.Grammar.Derivation

/-! Properties of values that every action keeps hold of the value of every derivation. -/
namespace Docblock.Grammar

variable {I : (v : Nonterminal) → v.Value → Prop} {ss : List Symbol} {α β : Type}

/-- A property of the values of nonterminals holds of those among some values. -/
def Holds (I : (v : Nonterminal) → v.Value → Prop) : (ss : List Symbol) → Values ss → Prop
  | [], _ => True
  | .t _ :: ss, (_, vs) => Holds I ss vs
  | .n v :: ss, (x, vs) => I v x ∧ Holds I ss vs

/-- Whatever values with the property a function is given, `Q` holds of its result. -/
def Ensures (I : (v : Nonterminal) → v.Value → Prop) (Q : α → Prop) :
    (ss : List Symbol) → Curried ss α → Prop
  | [], f => Q f
  | .t _ :: ss, f => ∀ t : Token, Ensures I Q ss (f t)
  | .n v :: ss, f => ∀ x : v.Value, I v x → Ensures I Q ss (f x)

/-- Given values with the property, an action that gives a value gives one with the property. -/
def Production.Keeps (I : (v : Nonterminal) → v.Value → Prop) (p : Production) : Prop :=
  ∀ file, Ensures I (fun r => ∀ v, r = .ok v → I p.lhs v) p.rhs (p.action file)

theorem Ensures.apply {Q : α → Prop} {f : Curried ss α} (h : Ensures I Q ss f) {vs : Values ss}
    (hv : Holds I ss vs) : Q (f.apply vs) := by
  induction ss with
  | nil => exact h
  | cons s ss ih =>
    obtain ⟨x, vs⟩ := vs
    cases s with
    | t k => exact ih (h x) hv
    | n v => exact ih (h x hv.1) hv.2

theorem Ensures.map {Q : β → Prop} {g : α → β} {f : Curried ss α}
    (h : Ensures I (fun a => Q (g a)) ss f) : Ensures I Q ss (f.map g) := by
  induction ss with
  | nil => exact h
  | cons s ss ih =>
    cases s with
    | t k => exact fun t => ih (h t)
    | n v => exact fun x hx => ih (h x hx)

theorem Ensures.imp {P Q : α → Prop} {f : Curried ss α} (h : Ensures I P ss f)
    (hi : ∀ a, P a → Q a) : Ensures I Q ss f := by
  induction ss with
  | nil => exact hi f h
  | cons s ss ih =>
    cases s with
    | t k => exact fun t => ih (h t)
    | n v => exact fun x hx => ih (h x hx)

theorem Ensures.anti {J : (v : Nonterminal) → v.Value → Prop} {P : α → Prop} {f : Curried ss α}
    (h : Ensures I P ss f) (hi : ∀ v x, J v x → I v x) : Ensures J P ss f := by
  induction ss with
  | nil => exact h
  | cons s ss ih =>
    cases s with
    | t k => exact fun t => ih (h t)
    | n v => exact fun x hx => ih (h x (hi v x hx))

theorem Ensures.and {J : (v : Nonterminal) → v.Value → Prop} {P Q : α → Prop} {f : Curried ss α}
    (h : Ensures I P ss f) (h' : Ensures J Q ss f) :
    Ensures (fun v x => I v x ∧ J v x) (fun a => P a ∧ Q a) ss f := by
  induction ss with
  | nil => exact ⟨h, h'⟩
  | cons s ss ih =>
    cases s with
    | t k => exact fun t => ih (h t) (h' t)
    | n v => exact fun x hx => ih (h x hx.1) (h' x hx.2)

theorem Production.Keeps.and {J : (v : Nonterminal) → v.Value → Prop} {p : Production}
    (h : p.Keeps I) (h' : p.Keeps J) : p.Keeps fun v x => I v x ∧ J v x :=
  fun file => ((h file).and (h' file)).imp fun _ hr v hv => ⟨hr.1 v hv, hr.2 v hv⟩

theorem Production.Keeps.and_of_imp {J : (v : Nonterminal) → v.Value → Prop} {p : Production}
    (h : p.Keeps I) (hi : ∀ x, I p.lhs x → J p.lhs x) : p.Keeps fun v x => I v x ∧ J v x :=
  fun file => ((h file).anti fun _ _ hx => hx.1).imp fun _ hr v hv =>
    ⟨hr v hv, hi v (hr v hv)⟩

theorem keeps_rule {lhs : Nonterminal} {f : Curried ss lhs.Value} (h : Ensures I (I lhs) ss f) :
    (rule lhs ss f).Keeps I := by
  intro file
  refine Ensures.map (h.imp ?_)
  rintro x hx v ⟨⟩
  exact hx

theorem keeps_ruleOrFault {lhs : Nonterminal} {f : Curried ss (Except Fault lhs.Value)}
    (h : Ensures I (fun r => ∀ v, r = .ok v → I lhs v) ss f) : (ruleOrFault lhs ss f).Keeps I :=
  fun _ => h

/-- The productions by what they are for: statements, declarations, expressions, literals. -/
theorem forall_productions {P : Production → Prop}
    (hs : ∀ p ∈ topRules ++ innerRules ++ statementRules ++ armRules ++ varListRules, P p)
    (hd : ∀ p ∈ functionRules ++ parameterRules ++ classRules ++ memberRules, P p)
    (he : ∀ p ∈ exprRules ++ operatorRules ++ arrayRules ++ argumentRules ++ classNameRules ++
      callRules ++ variableRules, P p)
    (hl : ∀ p ∈ scalarRules ++ staticScalarRules ++ encapsRules, P p) :
    ∀ p ∈ productions, P p := by
  have hall := List.forall_mem_append.mpr ⟨hs, List.forall_mem_append.mpr
    ⟨hd, List.forall_mem_append.mpr ⟨he, hl⟩⟩⟩
  unfold productions
  simpa only [List.append_assoc] using hall

/-- What all actions keep holds of all values. -/
theorem Forest.holds (hI : ∀ p ∈ productions, p.Keeps I) {file : Option String}
    (forest : Forest ss) {vs : Values ss} (h : forest.value file = .ok vs) : Holds I ss vs := by
  induction forest with
  | nil => trivial
  | token t rest ih =>
    obtain ⟨ws, hr, rfl⟩ := ok_of_map h
    exact ih hr
  | node p hp children rest ihc ihr =>
    simp only [value] at h
    split at h
    · cases h
    · rename_i ws hc
      split at h
      · cases h
      · rename_i v ha
        obtain ⟨us, hr, rfl⟩ := ok_of_map h
        exact ⟨(hI p hp file).apply (ihc hc) v ha, ihr hr⟩

/-- What all actions keep holds of the result of a derivation. -/
theorem Derivation.holds (hI : ∀ p ∈ productions, p.Keeps I) {file : Option String}
    {v : Nonterminal} {x : v.Value} (d : Derivation v) (h : d.result file = .ok x) : I v x := by
  obtain ⟨vs, hv, rfl⟩ := ok_of_map h
  exact (Forest.holds hI d hv).1

end Docblock.Grammar
