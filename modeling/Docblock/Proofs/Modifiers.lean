import Docblock.Proofs.Docs.Describe
import Docblock.Proofs.Grammar.Members
import Docblock.Proofs.Source
import Docblock.Proofs.Token.Keyword

/-! Modifiers are kept in lower case, and only those in ASCII are found there again. -/
namespace Docblock

open Token Grammar

variable {f g : Filter} {file : Option String} {text : List Char} {ts : List Tree} {w : Token}
  {c : Char} {cs : List Char} {k : Kind}

/-- All characters of a token are ASCII. -/
def Token.isAscii (t : Token) : Bool := t.text.toList.all fun c => decide (c.toNat < 0x80)

theorem Token.isAscii_iff : w.isAscii = true ↔ ∀ c ∈ w.text.toList, c.toNat < 0x80 := by
  simp [isAscii]

/-- A token whose kind is a modifier, and whose text is that word in some case. -/
def IsWord (w : Token) : Prop := w.kind ∈ modifierKinds ∧ kindOfName w.text.toList = w.kind

/-- The six modifiers in lower case. -/
def modifierNames : List String := ["public", "protected", "private", "static", "abstract", "final"]

/-- The six modifiers are reserved words with different names, which are ASCII. -/
theorem modifier_table :
    (keywords.all fun p => decide (p.2 ∉ modifierKinds) || p.1 == p.2.name) = true ∧
    (∀ k ∈ modifierKinds, k ∈ keywordKinds ∧ k ≠ .kwEcho ∧ lower k.name ∈ modifierNames ∧
      (k.name.toList.all fun c => decide (c.toNat < 0x80)) = true) ∧
    (∀ k ∈ modifierKinds, ∀ k' ∈ modifierKinds, lower k.name = lower k'.name → k = k') ∧
    (modifierNames.all fun s => s.toList.all fun c => decide (c.toNat < 0x80)) = true ∧
    lower Kind.kwProtected.name = "protected" ∧ lower Kind.kwPrivate.name = "private" := by
  decide +kernel

theorem lower_name_mem (hk : k ∈ modifierKinds) : lower k.name ∈ modifierNames :=
  (modifier_table.2.1 k hk).2.2.1

theorem lookup_of_kindOfName (h : kindOfName cs = k) (hk : k ≠ .ident) :
    keywords.lookup (String.ofList (cs.flatMap upper)) = some k := by
  rw [kindOfName] at h
  cases hl : keywords.lookup (String.ofList (cs.flatMap upper)) with
  | none =>
    rw [hl] at h
    exact absurd h.symm hk
  | some k' =>
    rw [hl] at h
    exact congrArg some h

theorem IsWord.lookup (h : IsWord w) :
    keywords.lookup (String.ofList (w.text.toList.flatMap upper)) = some w.kind := by
  refine lookup_of_kindOfName h.2 fun he => ?_
  have hmem := h.1
  rw [he] at hmem
  exact absurd hmem (by decide)

/-- In upper case, a modifier is the name of its kind. -/
theorem IsWord.upper_eq (h : IsWord w) :
    String.ofList (w.text.toList.flatMap upper) = w.kind.name := by
  have hall := List.all_eq_true.mp modifier_table.1 _ (mem_keywords h.lookup)
  simpa [h.1] using hall

theorem IsWord.lower_eq_iff (h : IsWord w) :
    lower w.text = lower w.kind.name ↔ w.isAscii = true := by
  have hlower := lower_upper_iff h.lookup
  rw [h.upper_eq, String.ofList_toList] at hlower
  rw [hlower, isAscii_iff]

/-- Of the six modifiers, the one that a token is in lower case is the one of its kind. -/
theorem IsWord.lower_mem_iff (h : IsWord w) : lower w.text ∈ modifierNames ↔ w.isAscii = true := by
  constructor
  · intro hmem
    obtain ⟨-, -, -, hnames, -⟩ := modifier_table
    have hascii := List.all_eq_true.mp hnames _ hmem
    rw [toList_lower, List.all_map] at hascii
    refine isAscii_iff.mpr fun c hc => Decidable.byContradiction fun hbeyond => hbeyond ?_
    have hlow := of_decide_eq_true (List.all_eq_true.mp hascii c hc)
    rwa [toLower_of_not_ascii hbeyond] at hlow
  · intro hascii
    rw [h.lower_eq_iff.mpr hascii]
    exact lower_name_mem h.1

/-- In lower case, a token is a modifier just if it is of its kind and ASCII. -/
theorem IsWord.lower_eq_name_iff (h : IsWord w) (hk : k ∈ modifierKinds) :
    lower w.text = lower k.name ↔ w.kind = k ∧ w.isAscii = true := by
  constructor
  · intro heq
    have hascii : w.isAscii = true := h.lower_mem_iff.mp (heq ▸ lower_name_mem hk)
    rw [h.lower_eq_iff.mpr hascii] at heq
    exact ⟨modifier_table.2.2.1 _ h.1 k hk heq, hascii⟩
  · rintro ⟨rfl, hascii⟩
    exact h.lower_eq_iff.mpr hascii

/-- Beyond ASCII, no character is a letter of one of the modifiers in upper case. -/
theorem upper_beyond (h : ¬ c.toNat < 0x80) : ∃ d ∈ upper c, d ∉ Kind.kwProtected.name.toList := by
  have hupper : c.toUpper = c := by
    refine dif_neg ?_
    rintro ⟨-, hle⟩
    exact h (Nat.lt_of_le_of_lt (UInt32.le_iff_toNat_le.mp hle) (by decide))
  unfold upper
  split
  case h_11 =>
    rw [hupper]
    obtain ⟨-, -, -, hname⟩ := modifier_table.2.1 .kwProtected (by decide)
    refine ⟨c, List.mem_singleton.mpr rfl, fun hmem => h ?_⟩
    exact of_decide_eq_true (List.all_eq_true.mp hname c hmem)
  all_goals exact ⟨_, List.mem_cons_self, by decide⟩

theorem IsWord.isAscii_of_protected (h : IsWord w) (hk : w.kind = .kwProtected) :
    w.isAscii = true := by
  refine isAscii_iff.mpr fun c hc => Decidable.byContradiction fun hbeyond => ?_
  obtain ⟨d, hd, hno⟩ := upper_beyond hbeyond
  have hname := congrArg String.toList (hk ▸ h.upper_eq)
  rw [String.toList_ofList] at hname
  exact hno (hname ▸ List.mem_flatMap.mpr ⟨c, hc, hd⟩)

/-- A token that keeps its member out of the documentation. -/
def hides (w : Token) : Bool := w.kind == .kwProtected || w.kind == .kwPrivate && w.isAscii

theorem IsWord.restricts_eq (h : IsWord w) : Docs.restricts (.text (lower w.text)) = hides w := by
  have hprotected := h.lower_eq_name_iff (k := .kwProtected) (by decide)
  have hprivate := h.lower_eq_name_iff (k := .kwPrivate) (by decide)
  obtain ⟨-, -, -, -, hprotectedName, hprivateName⟩ := modifier_table
  rw [hprotectedName, and_iff_left_of_imp h.isAscii_of_protected] at hprotected
  rw [hprivateName] at hprivate
  rw [Bool.eq_iff_iff]
  simp [Docs.restricts, Docs.isWord, hides, hprotected, hprivate]

theorem any_restricts_kept {ws : List Token} (h : ∀ w ∈ ws, IsWord w) :
    (kept ws).any Docs.restricts = ws.any hides := by
  rw [Bool.eq_iff_iff, kept, List.any_map, List.any_eq_true, List.any_eq_true]
  refine exists_congr fun w => and_congr_right fun hw => ?_
  rw [Function.comp, (h w hw).restricts_eq]

theorem describe_hidden {t : Tree} (h : t.modifiers.any Docs.restricts = true)
    (o : Docs.Options) (level : Nat) (last : Tree) : Docs.describe o level last t = .ok [] := by
  unfold Tree.modifiers at h
  split at h
  · rw [Docs.describe, Docs.isHidden_eq, h]
    rfl
  · rw [Docs.describe, Docs.isHidden_eq, h]
    rfl
  · cases h

/-- The modifiers of a member among the tokens of a source are the words they are typed as. -/
theorem isWord_of_infix {us : List Token} (hus : us <:+: f.stream.tokens) :
    ∀ w ∈ us.takeWhile isModifier, IsWord w := by
  intro w hw
  have hkind : w.kind ∈ modifierKinds := by
    simpa [isModifier] using List.all_eq_true.mp List.all_takeWhile w hw
  have hmem := hus.subset ((List.takeWhile_prefix _).subset hw)
  obtain ⟨hreserved, hecho, -⟩ := modifier_table.2.1 _ hkind
  exact ⟨hkind, Filter.keyword_of_stream hmem hreserved hecho⟩

/-- A word that is a reserved word in upper case is the same one in lower case just if it is ASCII.
So a member keeps the modifiers before it as they are called just if they are ASCII, and it stays
out of the documentation if one of them is protected, or private and ASCII. -/
theorem keywords_in_lower_case (f : Filter) (file : Option String) (text : List Char) :
    (∀ cs k, keywords.lookup (String.ofList (cs.flatMap upper)) = some k →
      (lower (String.ofList cs) = lower (String.ofList (cs.flatMap upper)) ↔
        ∀ c ∈ cs, c.toNat < 0x80)) ∧
    ∀ ts g, Filter.parse f file text = (.ok ts, g) →
      ∀ t ∈ Tree.nodesIn ts, t.hasModifiers = true →
        ∃ us, us <:+: (f.input text).stream.tokens ∧ ReadAs file .classStatement us t ∧
          t.modifiers = kept (us.takeWhile isModifier) ∧
          (∀ w ∈ us.takeWhile isModifier, lower w.text ∈ modifierNames ↔ w.isAscii = true) ∧
          Docs.isHidden (.list t.modifiers) = .ok ((us.takeWhile isModifier).any hides) ∧
          ((us.takeWhile isModifier).any hides = true →
            ∀ o level last, Docs.describe o level last t = .ok []) := by
  refine ⟨fun cs k => lower_upper_iff, ?_⟩
  intro ts g h t ht hmod
  obtain ⟨-, -, d, hd, hv⟩ := parse_ok h
  obtain ⟨us, hus, htokens⟩ := d.exists_member hv ht hmod
  rw [hd] at hus
  have hkept := modifiers_of_readAs htokens hmod
  have hwords := isWord_of_infix hus
  have hhidden : t.modifiers.any Docs.restricts = (us.takeWhile isModifier).any hides := by
    rw [hkept, any_restricts_kept hwords]
  refine ⟨us, hus, htokens, hkept, fun w hw => (hwords w hw).lower_mem_iff, ?_, fun hany => ?_⟩
  · rw [Docs.isHidden_eq, hhidden]
  · exact describe_hidden (hhidden.trans hany)

/-- The capital letter makes no difference. -/
theorem keywords_in_lower_case_private :
    lower "Private" = lower "PRIVATE" ∧
    ∃ ts g, (Filter.fresh []).parse none
        "<?php class A \x7b Private $x; \x7d".toList = (.ok ts, g) ∧
      ∃ t ∈ Tree.nodesIn ts, t.hasModifiers = true ∧
        ∀ o level last, Docs.describe o level last t = .ok [] := by
  obtain ⟨hlower, hmembers⟩ := keywords_in_lower_case (Filter.fresh []) none
    "<?php class A \x7b Private $x; \x7d".toList
  have hascii := Token.isAscii_iff (w := ⟨.kwPrivate, "Private", 1, 0⟩) |>.mp (by decide +kernel)
  refine ⟨(hlower "Private".toList .kwPrivate (by decide +kernel)).mpr hascii, ?_⟩
  obtain ⟨ts, g, h, hany⟩ := exists_parse_any (Filter.fresh []) none
    "<?php class A \x7b Private $x; \x7d".toList
    (p := fun ts => (Tree.nodesIn ts).any fun t =>
      t.hasModifiers && t.modifiers.any Docs.restricts)
    (by rw [String.toList_ofList]; decide +kernel)
  obtain ⟨t, ht, hmod⟩ := List.any_eq_true.mp hany
  rw [Bool.and_eq_true] at hmod
  obtain ⟨us, -, -, -, -, hhidden, hnone⟩ := hmembers ts g h t ht hmod.1
  rw [Docs.isHidden_eq, hmod.2] at hhidden
  exact ⟨ts, g, h, t, ht, hmod.1, hnone (Except.ok.inj hhidden).symm⟩

/-- A member behind a word that is private only in upper case is in the documentation. -/
theorem private_not_in_lower_case :
    ∃ ts g, (Filter.fresh []).parse none
        "<?php class A \x7b /** d */ pr\u0131vate function f() \x7b\x7d \x7d".toList = (.ok ts, g) ∧
      (∃ w ∈ ((Filter.fresh []).input
        "<?php class A \x7b /** d */ pr\u0131vate function f() \x7b\x7d \x7d".toList).stream.tokens,
          w.kind = .kwPrivate) ∧
      ∃ es, Docs.moduleEntries ⟨true, true⟩ ts = .ok es ∧
        ∃ e ∈ es, e.kind = .method ∧ e.name = "f()" := by
  obtain ⟨ts, g, h, hany⟩ := exists_parse_any (Filter.fresh []) none
    "<?php class A \x7b /** d */ pr\u0131vate function f() \x7b\x7d \x7d".toList
    (p := fun ts => (Docs.moduleEntries ⟨true, true⟩ ts).toOption.any fun es =>
      es.any fun e => e.kind == .method && e.name == "f()")
    (by rw [String.toList_ofList]; decide +kernel)
  have htoken : ((Filter.fresh []).input
      "<?php class A \x7b /** d */ pr\u0131vate function f() \x7b\x7d \x7d".toList
        ).stream.tokens.any (·.kind == .kwPrivate) = true := by
    rw [String.toList_ofList]
    decide +kernel
  refine ⟨ts, g, h, by simpa using htoken, ?_⟩
  cases hm : Docs.moduleEntries ⟨true, true⟩ ts with
  | error e =>
    rw [hm] at hany
    cases hany
  | ok es =>
    rw [hm] at hany
    exact ⟨es, rfl, by simpa [Except.toOption] using hany⟩

end Docblock
