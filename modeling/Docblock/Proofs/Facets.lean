import Docblock.Proofs.Docs.Documentable
import Docblock.Proofs.Prototype.Source
import Docblock.Proofs.Signatures

/-! What the signature of a function tells about its parameters. -/
namespace Docblock

open Token Text Token.Pattern

variable {xs ys as bs : List Char} {c : Char}

/-- Runs of characters of a class are equal if all that no more of them follows is. -/
theorem append_run_inj {p : Char → Bool} (hxs : ∀ c ∈ xs, p c = true) (hys : ∀ c ∈ ys, p c = true)
    (has : startsWith p as = false) (hbs : startsWith p bs = false) (h : xs ++ as = ys ++ bs) :
    xs = ys ∧ as = bs := by
  have hlength : xs.length = ys.length := by
    rw [← run_append hxs has, ← run_append hys hbs, h]
  exact List.append_inj h hlength

/-- What stands before the first of a character is determined, and so is what follows it. -/
theorem append_first_inj (hxs : c ∉ xs) (hys : c ∉ ys) (h : xs ++ c :: as = ys ++ c :: bs) :
    xs = ys ∧ as = bs := by
  have hrun : ∀ zs : List Char, c ∉ zs → ∀ d ∈ zs, (d != c) = true := by
    intro zs hzs d hd
    simp only [bne_iff_ne]
    rintro rfl
    exact hzs hd
  have hstop : ∀ zs, startsWith (· != c) (c :: zs) = false := by
    intro zs
    simp [startsWith]
  obtain ⟨hfirst, hrest⟩ :=
    append_run_inj (hrun xs hxs) (hrun ys hys) (hstop as) (hstop bs) h
  exact ⟨hfirst, (List.cons.inj hrest).2⟩

namespace Parameter

variable {p q : Parameter}

theorem hintChars_eq (p : Parameter) : p.hintChars = [] ∨ ∃ cs, p.hintChars = cs ++ [' '] := by
  rw [hintChars]
  cases p.hint with
  | none => exact Or.inl rfl
  | some h => exact Or.inr ⟨h.chars, rfl⟩

/-- A reference sign is no part of a type. -/
theorem hintChars_ne_sign (p : Parameter) (cs : List Char) : p.hintChars ≠ cs ++ ['&'] := by
  intro h
  rcases p.hintChars_eq with hnil | ⟨ds, hds⟩
  · simp [hnil] at h
  · rw [hds] at h
    have hlast := (List.append_inj' h rfl).2
    cases hlast

theorem hint_inj (h : p.hintChars ++ p.signChars = q.hintChars ++ q.signChars) :
    p.hintChars = q.hintChars ∧ p.isRef = q.isRef := by
  unfold signChars at h
  cases hp : p.isRef <;> cases hq : q.isRef <;> simp only [hp, hq, if_true, if_false,
    Bool.false_eq_true, List.append_nil] at h
  · exact ⟨h, rfl⟩
  · exact absurd h (p.hintChars_ne_sign _)
  · exact absurd h.symm (q.hintChars_ne_sign _)
  · exact ⟨List.append_cancel_right h, rfl⟩

theorem type_eq_iff : p.type = q.type ↔ p.hintChars = q.hintChars := by
  unfold type hintChars
  cases p.hint <;> cases q.hint <;>
    simp [Hint.text, String.ofList_inj]

/-- What a parameter has before its default value tells its name, sign and type, if nothing behind
it goes on with the name. -/
theorem openingChars_inj (has : startsWith isWord as = false) (hbs : startsWith isWord bs = false)
    (h : p.openingChars ++ as = q.openingChars ++ bs) :
    p.name.chars = q.name.chars ∧ p.isRef = q.isRef ∧ p.type = q.type ∧ as = bs := by
  simp only [openingChars, ← List.append_assoc] at h
  simp only [List.append_assoc (_ ++ _), List.cons_append] at h
  obtain ⟨hhint, hname⟩ := append_first_inj (p.not_mem_hint rfl (by decide))
    (q.not_mem_hint rfl (by decide)) h
  obtain ⟨hname, hrest⟩ := append_run_inj p.name.isWord_chars q.name.isWord_chars has hbs hname
  obtain ⟨hhint, hsign⟩ := hint_inj hhint
  exact ⟨hname, hsign, type_eq_iff.mpr hhint, hrest⟩

end Parameter

/-! ### Parameters with the texts of their default values -/

/-- What a signature shows of a parameter: its name, its reference sign, its type, and the text of
its default value if that is shown. -/
structure Facets where
  name : Option Tree
  isRef : Option Tree
  type : Option Tree
  value : Option String

/-- A parameter of a signature, which has any text for a default value, or none. -/
structure Rendered where
  opening : Parameter
  text : Option String

namespace Rendered

def tailChars (q : Rendered) : List Char := q.text.elim [] fun s => [' ', '=', ' '] ++ s.toList

def chars (q : Rendered) : List Char := q.opening.openingChars ++ q.tailChars

/-- The characters of parameters behind another one. -/
def moreChars (qs : List Rendered) : List Char := (qs.map chars).flatMap ([',', ' '] ++ ·)

def facets (q : Rendered) : Facets :=
  ⟨some (.text q.opening.name.asVariable), some (.bool q.opening.isRef), some q.opening.type,
    q.text⟩

end Rendered

/-- A text in which no parameter opens behind a comma. -/
def OpensNone (s : String) : Prop :=
  ∀ p : Parameter, ¬ ',' :: ' ' :: p.openingChars <:+: s.toList

theorem opensNone_of_not_mem {s : String} (h : '$' ∉ s.toList) : OpensNone s := by
  intro p hp
  refine h (hp.subset ?_)
  simp [Parameter.openingChars]

namespace Rendered

variable {q q' : Rendered} {qs qs' : List Rendered}

theorem moreChars_cons : moreChars (q :: qs) = ',' :: ' ' :: (q.chars ++ moreChars qs) := by
  simp [moreChars]

/-- Behind a parameter, there is nothing or a comma. -/
theorem moreChars_eq (qs : List Rendered) : moreChars qs = [] ∨ ∃ cs, moreChars qs = ',' :: cs := by
  cases qs with
  | nil => exact Or.inl rfl
  | cons q qs => exact Or.inr ⟨_, moreChars_cons⟩

theorem comma_not_mem (p : Parameter) : ',' ∉ p.openingChars := by
  have hhint := p.not_mem_hint (c := ',') rfl (by decide)
  have hname := p.name.not_mem_chars (c := ',') rfl
  simp only [List.mem_append, not_or] at hhint
  simp [Parameter.openingChars, hhint, hname]

/-- What opens a parameter is not cut off by a comma. -/
theorem opening_prefix {p : Parameter} (h : ' ' :: p.openingChars ++ as = xs ++ moreChars qs) :
    ' ' :: p.openingChars <+: xs := by
  rcases List.append_eq_append_iff.mp h with ⟨zs, rfl, -⟩ | ⟨zs, hopening, hmore⟩
  · exact List.prefix_append _ _
  · cases zs with
    | nil =>
      have hall : ' ' :: p.openingChars = xs := by rw [hopening, List.append_nil]
      exact hall ▸ List.prefix_rfl
    | cons z zs =>
      exfalso
      rcases moreChars_eq qs with hnil | ⟨cs, hcs⟩
      · rw [hnil] at hmore
        cases hmore
      · rw [hcs] at hmore
        cases hmore
        have hmem : ',' ∈ ' ' :: p.openingChars := by simp [hopening]
        exact comma_not_mem p (by simpa using hmem)

/-- If parameters that follow a part of a text also follow all of it, the part is all. -/
theorem text_end {s : String} (hs : OpensNone s) (htext : s.toList = xs ++ ys)
    (h : moreChars qs = ys ++ moreChars qs') : ys = [] := by
  cases qs with
  | nil => exact (List.append_eq_nil_iff.mp h.symm).1
  | cons q qs =>
    by_contra hne
    obtain ⟨y, zs, rfl⟩ := List.exists_cons_of_ne_nil hne
    rw [moreChars_cons, chars, List.append_assoc] at h
    obtain ⟨rfl, hrest⟩ := List.cons.inj h
    -- The first of the parameters opens in what is left of the text.
    obtain ⟨ws, rfl⟩ := opening_prefix hrest
    exact hs q.opening ⟨xs, ws, by rw [htext]; simp⟩

theorem text_inj {s s' : String} (hs : OpensNone s) (hs' : OpensNone s')
    (h : s.toList ++ moreChars qs = s'.toList ++ moreChars qs') :
    s = s' ∧ moreChars qs = moreChars qs' := by
  rcases List.append_eq_append_iff.mp h with ⟨zs, htext, hmore⟩ | ⟨zs, htext, hmore⟩
  · have hnil := text_end hs' htext hmore
    rw [hnil, List.append_nil] at htext
    rw [hnil, List.nil_append] at hmore
    exact ⟨String.toList_inj.mp htext.symm, hmore⟩
  · have hnil := text_end hs htext hmore
    rw [hnil, List.append_nil] at htext
    rw [hnil, List.nil_append] at hmore
    exact ⟨String.toList_inj.mp htext, hmore.symm⟩

theorem startsWith_tail (q : Rendered) (qs : List Rendered) :
    startsWith isWord (q.tailChars ++ moreChars qs) = false := by
  unfold tailChars
  cases q.text with
  | none =>
    rcases moreChars_eq qs with h | ⟨cs, h⟩
    · simp [h, startsWith]
    · simp only [Option.elim_none, List.nil_append, h]
      rfl
  | some s => rfl

theorem tail_inj (hq : ∀ s ∈ q.text, OpensNone s) (hq' : ∀ s ∈ q'.text, OpensNone s)
    (h : q.tailChars ++ moreChars qs = q'.tailChars ++ moreChars qs') :
    q.text = q'.text ∧ moreChars qs = moreChars qs' := by
  unfold tailChars at h
  cases ht : q.text with
  | none =>
    cases ht' : q'.text with
    | none => exact ⟨rfl, by simpa [ht, ht'] using h⟩
    | some s' =>
      rcases moreChars_eq qs with hm | ⟨cs, hm⟩ <;> simp [ht, ht', hm] at h
  | some s =>
    cases ht' : q'.text with
    | none =>
      rcases moreChars_eq qs' with hm | ⟨cs, hm⟩ <;> simp [ht, ht', hm] at h
    | some s' =>
      simp only [ht, ht', Option.elim_some, List.append_assoc, List.append_cancel_left_eq] at h
      obtain ⟨rfl, hmore⟩ := text_inj (hq s ht) (hq' s' ht') h
      exact ⟨rfl, hmore⟩

/-- Parameters behind another one can be told apart, if none opens in the text of a default
value. -/
theorem moreChars_inj (hqs : ∀ q ∈ qs, ∀ s ∈ q.text, OpensNone s)
    (hqs' : ∀ q ∈ qs', ∀ s ∈ q.text, OpensNone s) (h : moreChars qs = moreChars qs') :
    qs.map facets = qs'.map facets := by
  induction qs generalizing qs' with
  | nil =>
    cases qs' with
    | nil => rfl
    | cons q' qs' => cases h
  | cons q qs ih =>
    cases qs' with
    | nil => cases h
    | cons q' qs' =>
      obtain ⟨hq, hqs⟩ := List.forall_mem_cons.mp hqs
      obtain ⟨hq', hqs'⟩ := List.forall_mem_cons.mp hqs'
      simp only [moreChars_cons, chars, List.append_assoc, List.cons.injEq, true_and] at h
      obtain ⟨hname, href, htype, htail⟩ :=
        Parameter.openingChars_inj (q.startsWith_tail qs) (q'.startsWith_tail qs') h
      obtain ⟨htext, hmore⟩ := tail_inj hq hq' htail
      have hfacets : q.facets = q'.facets := by
        simp only [facets, Name.asVariable, hname, href, htype, htext]
      rw [List.map_cons, List.map_cons, hfacets, ih hqs hqs' hmore]

/-- What a parameter shows is all that its characters depend on. -/
theorem chars_of_facets (h : q.facets = q'.facets) : q.chars = q'.chars := by
  simp only [facets, Facets.mk.injEq, Option.some.injEq, Tree.text.injEq, Tree.bool.injEq,
    Name.asVariable, String.ofList_inj, List.cons.injEq, true_and] at h
  obtain ⟨hname, href, htype, htext⟩ := h
  rw [chars, chars, Parameter.openingChars, Parameter.openingChars, Parameter.signChars,
    Parameter.signChars, Parameter.type_eq_iff.mp htype, hname, href, tailChars, tailChars, htext]

theorem map_chars_of_facets (h : qs.map facets = qs'.map facets) :
    qs.map chars = qs'.map chars := by
  induction qs generalizing qs' with
  | nil =>
    rw [List.map_eq_nil_iff.mp h.symm]
  | cons q qs ih =>
    obtain ⟨q', qs'', rfl, hfirst, hrest⟩ := List.map_eq_cons_iff.mp h.symm
    rw [List.map_cons, List.map_cons, chars_of_facets hfirst, ih hrest.symm]

theorem joined_inj (hqs : ∀ q ∈ qs, ∀ s ∈ q.text, OpensNone s)
    (hqs' : ∀ q ∈ qs', ∀ s ∈ q.text, OpensNone s) :
    [',', ' '].intercalate (qs.map chars) = [',', ' '].intercalate (qs'.map chars) ↔
      qs.map facets = qs'.map facets := by
  constructor
  · intro h
    have hne : ∀ q : Rendered, ∀ qs, [',', ' '].intercalate ((q :: qs).map chars) ≠ [] := by
      intro q qs
      simp [intercalate_cons, chars, Parameter.openingChars]
    cases qs with
    | nil =>
      cases qs' with
      | nil => rfl
      | cons q' qs' => exact absurd h.symm (hne q' qs')
    | cons q qs =>
      cases qs' with
      | nil => exact absurd h (hne q qs)
      | cons q' qs' =>
        refine moreChars_inj hqs hqs' ?_
        rw [moreChars_cons, moreChars_cons]
        simp only [List.map_cons, intercalate_cons] at h
        exact congrArg (',' :: ' ' :: ·) h
  · intro h
    rw [map_chars_of_facets h]

end Rendered

/-! ### Parameters of a source -/

namespace Tree

/-- The text of the default value of a parameter, if a signature shows it. -/
def shownDefault? (t : Tree) : Option String :=
  (t.default?.filter truthy).bind fun value => (Docs.signature value).toOption.map display

/-- A parameter with a default value that no signature shows. -/
def hidesDefault (t : Tree) : Bool := t.default?.any fun value => !value.truthy

def facets (t : Tree) : Facets :=
  ⟨t.field? "name", t.field? "is_ref", t.field? "type", t.shownDefault?⟩

/-- Null is the only value that is no default value. -/
theorem default?_eq (line : Option Int) (name value ref type : Tree) :
    value = .null ∧ (node .formalParameter line [name, value, ref, type]).default? = none ∨
      (node .formalParameter line [name, value, ref, type]).default? = some value := by
  cases value with
  | null => exact Or.inl ⟨rfl, rfl⟩
  | _ => exact Or.inr rfl

end Tree

/-- A tree is the parameter, and the text of its default value is shown. -/
structure Rendered.Shows (q : Rendered) (t : Tree) : Prop where
  opens : q.opening.Opens t
  shaped : t.shaped = true
  text : t.shownDefault? = q.text

namespace Rendered.Shows

variable {q : Rendered} {qs : List Rendered} {t : Tree} {ts : List Tree}

theorem facets_eq (h : q.Shows t) : t.facets = q.facets := by
  obtain ⟨⟨line, value, rfl⟩, -, htext⟩ := h
  rw [Tree.facets, htext]
  rfl

/-- What is shown is the text of a default value that is set. -/
theorem exists_value (h : q.Shows t) :
    ∃ (line : Option Int) (value : Tree) (s : String),
      t = .node .formalParameter line
        [.text q.opening.name.asVariable, value, .bool q.opening.isRef, q.opening.type] ∧
      Docs.signature value = .ok (.text s) ∧ q.text = if value.truthy then some s else none := by
  obtain ⟨⟨line, value, rfl⟩, hshaped, htext⟩ := h
  obtain ⟨s, hs⟩ := Docs.signature_shaped value ((Tree.shaped_node.mp hshaped).2 value (by simp))
  refine ⟨line, value, s, rfl, hs, ?_⟩
  rw [← htext, Tree.shownDefault?]
  rcases Tree.default?_eq line _ value _ _ with ⟨rfl, hnone⟩ | hsome
  · rw [hnone]
    rfl
  · rw [hsome]
    cases htruthy : value.truthy <;>
      simp [Option.filter, htruthy, hs, Except.toOption, Tree.display]

/-- A parameter has a default value just if it shows or hides one. -/
theorem isSome_default (h : q.Shows t) :
    t.default?.isSome = (t.shownDefault?.isSome ^^ t.hidesDefault) := by
  rw [h.text]
  obtain ⟨line, value, s, rfl, -, htext⟩ := h.exists_value
  rw [htext, Tree.hidesDefault]
  rcases Tree.default?_eq line _ value _ _ with ⟨rfl, hnone⟩ | hsome
  · rw [hnone]
    rfl
  · rw [hsome]
    cases htruthy : value.truthy <;> simp [htruthy]

/-- The signature of a parameter of a source. -/
theorem signature_eq (h : q.Shows t) : Docs.signature t = .ok (.text (String.ofList q.chars)) := by
  obtain ⟨line, value, s, rfl, hs, htext⟩ := h.exists_value
  have htail : Docs.PartText (" = " ++ ·) value (String.ofList q.tailChars) := by
    rw [tailChars, htext]
    cases htruthy : value.truthy with
    | false => exact Or.inl ⟨htruthy, rfl⟩
    | true =>
      refine Or.inr ⟨htruthy, _, hs, ?_⟩
      simp [Tree.display, ← String.toList_inj]
  rw [Docs.signature_formalParameter (Docs.partText_hint q.opening) htail, Docs.sign_text,
    chars, Parameter.openingChars]
  simp only [String.ofList_append, String.append_assoc]
  rfl

theorem exists_of_mem (h : List.Forall₂ Shows qs ts) : ∀ t ∈ ts, ∃ q : Rendered, q.Shows t := by
  induction h with
  | nil => exact fun t ht => nomatch ht
  | cons h _ ih => exact List.forall_mem_cons.mpr ⟨⟨_, h⟩, ih⟩

theorem map_facets (h : List.Forall₂ Shows qs ts) :
    ts.map Tree.facets = qs.map Rendered.facets := by
  induction h with
  | nil => rfl
  | cons h _ ih => rw [List.map_cons, List.map_cons, h.facets_eq, ih]

theorem exists_of_isParameter (h : t.IsParameter) (hs : t.shaped = true) :
    ∃ q : Rendered, q.Shows t := by
  obtain ⟨p, hp⟩ := h.opens
  exact ⟨⟨p, t.shownDefault?⟩, hp, hs, rfl⟩

end Rendered.Shows

section

variable {f g f' g' : Filter} {file file' : Option String} {text text' : List Char} {t t' : Tree}
  {ts ts' : List Tree}

/-- The name of a function and the parameters of its signature. -/
structure Outlined (t : Tree) (name : Word .ident) (qs : List Rendered) : Prop where
  name_eq : t.field? "name" = some (.text name.name.text)
  shows : List.Forall₂ Rendered.Shows qs t.parameters
  signature_eq : Docs.signature t = .ok (.text (String.ofList (name.name.chars ++
    '(' :: ([',', ' '].intercalate (qs.map Rendered.chars) ++ [')']))))

theorem exists_outlined (h : f.parse file text = (.ok ts, g)) (ht : t ∈ Tree.nodesIn ts)
    (hk : t.isOf [.function] = true) : ∃ name qs, Outlined t name qs := by
  have hshaped := Docs.shaped_nodesIn ts (Docs.parse_shaped h) t ht
  obtain ⟨us, hus, hread⟩ := readAs_function h ht hk
  have hchain := List.IsChain.infix (f.input text).follows_stream hus
  obtain ⟨line, name, params, body, ref, rfl, hps⟩ :=
    hread.spelled Grammar.written_productions hchain
  have hparams := Tree.shaped_list.mp ((Tree.shaped_node.mp hshaped).2 (.list params) (by simp))
  obtain ⟨qs, hqs⟩ := exists_forall₂ fun t ht =>
    Rendered.Shows.exists_of_isParameter (hps t ht) (hparams t ht)
  refine ⟨name, qs, rfl, hqs, ?_⟩
  have htexts := Docs.signatureAll_texts (hqs.imp fun _ _ hq => hq.signature_eq)
  rw [Docs.signature_function htexts, Name.text, String.toList_ofList]

namespace Outlined

variable {name name' : Word .ident} {qs qs' : List Rendered}

/-- The signature of a function is its name, and what stands between the parentheses. -/
theorem signature_iff (o : Outlined t name qs) (o' : Outlined t' name' qs') :
    Docs.signature t = Docs.signature t' ↔ t.field? "name" = t'.field? "name" ∧
      [',', ' '].intercalate (qs.map Rendered.chars) =
        [',', ' '].intercalate (qs'.map Rendered.chars) := by
  rw [o.signature_eq, o'.signature_eq, o.name_eq, o'.name_eq]
  simp only [Except.ok.injEq, Option.some.injEq, Tree.text.injEq, Name.text, String.ofList_inj]
  constructor
  · intro h
    obtain ⟨hname, hrest⟩ := append_first_inj (name.name.not_mem_chars rfl)
      (name'.name.not_mem_chars rfl) h
    exact ⟨hname, List.append_cancel_right hrest⟩
  · rintro ⟨hname, hparams⟩
    rw [hname, hparams]

/-- The texts of the parameters are those of the default values that are shown. -/
theorem forall_text (o : Outlined t name qs) {P : String → Prop}
    (h : ∀ p ∈ t.parameters, ∀ s ∈ p.shownDefault?, P s) : ∀ q ∈ qs, ∀ s ∈ q.text, P s := by
  intro q hq s hs
  have hmem : q.facets ∈ t.parameters.map Tree.facets := by
    rw [Rendered.Shows.map_facets o.shows]
    exact List.mem_map_of_mem hq
  obtain ⟨p, hp, hfacets⟩ := List.mem_map.mp hmem
  have htext : p.shownDefault? = q.text := congrArg Facets.value hfacets
  exact h p hp s (htext ▸ hs)

end Outlined

/-- Two functions of sources have the same signature just if they have the same name and their
parameters show the same, one by one: the name, the reference sign, the type, and the text of the
default value if it is set. This holds if in no such text another parameter opens behind a comma.
The two functions then have default values at the same places just if they hide them at the same
places. -/
theorem signature_eq_iff_facets (h : f.parse file text = (.ok ts, g)) (ht : t ∈ Tree.nodesIn ts)
    (hk : t.isOf [.function] = true) (h' : f'.parse file' text' = (.ok ts', g'))
    (ht' : t' ∈ Tree.nodesIn ts') (hk' : t'.isOf [.function] = true)
    (hplain : ∀ p ∈ t.parameters, ∀ s ∈ p.shownDefault?, OpensNone s)
    (hplain' : ∀ p ∈ t'.parameters, ∀ s ∈ p.shownDefault?, OpensNone s) :
    (Docs.signature t = Docs.signature t' ↔ t.field? "name" = t'.field? "name" ∧
      t.parameters.map Tree.facets = t'.parameters.map Tree.facets) ∧
    (Docs.signature t = Docs.signature t' → ∀ (i : Nat) (p p' : Tree),
      t.parameters[i]? = some p → t'.parameters[i]? = some p' →
      (p.default?.isSome = p'.default?.isSome ↔ p.hidesDefault = p'.hidesDefault)) := by
  obtain ⟨name, qs, o⟩ := exists_outlined h ht hk
  obtain ⟨name', qs', o'⟩ := exists_outlined h' ht' hk'
  have hiff : Docs.signature t = Docs.signature t' ↔ t.field? "name" = t'.field? "name" ∧
      t.parameters.map Tree.facets = t'.parameters.map Tree.facets := by
    rw [o.signature_iff o', Rendered.joined_inj (o.forall_text hplain) (o'.forall_text hplain'),
      Rendered.Shows.map_facets o.shows, Rendered.Shows.map_facets o'.shows]
  refine ⟨hiff, ?_⟩
  intro hsame i p p' hp hp'
  have hfacets : p.facets = p'.facets := by
    have hget := congrArg (fun l => l[i]?) (hiff.mp hsame).2
    simpa [hp, hp'] using hget
  have hshown : p.shownDefault? = p'.shownDefault? := congrArg Facets.value hfacets
  obtain ⟨q, hq⟩ := Rendered.Shows.exists_of_mem o.shows p (List.mem_of_getElem? hp)
  obtain ⟨q', hq'⟩ := Rendered.Shows.exists_of_mem o'.shows p' (List.mem_of_getElem? hp')
  rw [hq.isSome_default, hq'.isSome_default, hshown]
  exact Bool.xor_right_inj

end

/-- The text of a signature. -/
def signatureText (t : Tree) : Option String :=
  match Docs.signature t with
  | .ok (.text s) => some s
  | _ => none

theorem signature_of_text {t : Tree} {s : String} (h : signatureText t = some s) :
    Docs.signature t = .ok (.text s) := by
  unfold signatureText at h
  split at h
  · rename_i hs
    cases h
    exact hs
  · cases h

/-- Two functions of one name, which differ in a default value that is not set. -/
def twinSource : List Char :=
  ("<?php function f(A &$a, $b = 'y, z', $c = 0) \x7b\x7d " ++
    "\x7b function f(A &$a, $b = 'y, z', $c) \x7b\x7d \x7d").toList

/-- A function with a signature and with default values at some places, none of which is shown with
the sign of a variable. -/
def isTwin (signature : String) (defaults : List Bool) (t : Tree) : Bool :=
  t.isOf [.function] && signatureText t == some signature &&
    t.parameters.map (·.default?.isSome) == defaults &&
    t.parameters.all fun p => p.shownDefault?.all fun s => !s.toList.contains '$'

theorem plain_of_isTwin {signature : String} {defaults : List Bool} {t : Tree}
    (h : isTwin signature defaults t = true) :
    ∀ p ∈ t.parameters, ∀ s ∈ p.shownDefault?, OpensNone s := by
  intro p hp s hs
  have hall := List.all_eq_true.mp (Bool.and_eq_true_iff.mp h).2 p hp
  rw [Option.mem_def.mp hs] at hall
  exact opensNone_of_not_mem (by simpa using hall)

theorem signature_eq_iff_facets_nested :
    ∃ ts g, (Filter.fresh []).parse none twinSource = (.ok ts, g) ∧
      ∃ t ∈ Tree.nodesIn ts, ∃ t' ∈ Tree.nodesIn ts,
        Docs.signature t = .ok (.text "f(A &$a, $b = y, z, $c)") ∧
        Docs.signature t' = Docs.signature t ∧
        t.parameters.map Tree.facets = t'.parameters.map Tree.facets ∧
        t.parameters.map (·.default?.isSome) = [false, true, true] ∧
        t'.parameters.map (·.default?.isSome) = [false, true, false] := by
  obtain ⟨ts, g, h, hp⟩ := exists_parse_any (Filter.fresh []) none twinSource
    (p := fun ts =>
      (Tree.nodesIn ts).any (isTwin "f(A &$a, $b = y, z, $c)" [false, true, true]) &&
      (Tree.nodesIn ts).any (isTwin "f(A &$a, $b = y, z, $c)" [false, true, false]))
    (by
      unfold twinSource
      rw [String.toList_append, String.toList_ofList, String.toList_ofList]
      decide +kernel)
  obtain ⟨hfirst, hsecond⟩ := Bool.and_eq_true_iff.mp hp
  obtain ⟨t, ht, htwin⟩ := List.any_eq_true.mp hfirst
  obtain ⟨t', ht', htwin'⟩ := List.any_eq_true.mp hsecond
  have hplain := plain_of_isTwin htwin
  have hplain' := plain_of_isTwin htwin'
  simp only [isTwin, Bool.and_eq_true, beq_iff_eq] at htwin htwin'
  obtain ⟨⟨⟨hk, hs⟩, hdefaults⟩, -⟩ := htwin
  obtain ⟨⟨⟨hk', hs'⟩, hdefaults'⟩, -⟩ := htwin'
  have hsame := (signature_of_text hs).trans (signature_of_text hs').symm
  have hfacets := (signature_eq_iff_facets h ht hk h ht' hk' hplain hplain').1.mp hsame
  exact ⟨ts, g, h, t, ht, t', ht', signature_of_text hs, hsame.symm, hfacets.2, hdefaults,
    hdefaults'⟩

/-- Functions with equal signatures that differ in their parameters: one has a default value that is
not set, and another one has the text of a parameter for a default value. -/
def alikeSource : List Char :=
  ("<?php function f($a) \x7b\x7d function f($a = 0) \x7b\x7d " ++
    "function g($a = 'x, $b') \x7b\x7d function g($a = x, $b) \x7b\x7d").toList

theorem equal_signatures : ∃ ts g, (Filter.fresh []).parse none alikeSource = (.ok ts, g) ∧
    ts.map signatureText =
      [some "f($a)", some "f($a)", some "g($a = x, $b)", some "g($a = x, $b)"] ∧
    ts.map (fun t => t.parameters.map (·.default?.isSome)) =
      [[false], [true], [true], [true, false]] := by
  obtain ⟨ts, g, h, hp⟩ := exists_parse_any (Filter.fresh []) none alikeSource
    (p := fun ts => ts.map signatureText =
        [some "f($a)", some "f($a)", some "g($a = x, $b)", some "g($a = x, $b)"] ∧
      ts.map (fun t => t.parameters.map (·.default?.isSome)) =
        [[false], [true], [true], [true, false]])
    (by
      unfold alikeSource
      rw [String.toList_append, String.toList_ofList, String.toList_ofList]
      decide +kernel)
  obtain ⟨hsame, hdefaults⟩ := of_decide_eq_true hp
  exact ⟨ts, g, h, hsame, hdefaults⟩

end Docblock
