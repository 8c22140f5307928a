import Docblock.Proofs.Token.Line
import Docblock.Proofs.Token.Modes

/-! Where a bracketed comment ends. -/
namespace Docblock.Token.Pattern

variable {cs ds : List Char} {c : Char} {i k n : Nat}

/-- The two characters that end a comment stand at some place. -/
def Closes (cs : List Char) (i : Nat) : Prop := ['*', '/'] <+: cs.drop i

/-- The first end of a comment from the place `k` on is at `i`. -/
structure FirstClose (k : Nat) (cs : List Char) (i : Nat) : Prop where
  from_le : k ≤ i
  closes : Closes cs i
  first : ∀ j, k ≤ j → j < i → ¬ Closes cs j

/-- The first end of a comment from the place `k` on is the end of all of it. -/
def ClosesLast (k : Nat) (cs : List Char) : Prop := ∃ i, FirstClose k cs i ∧ i + 2 = cs.length

instance (cs : List Char) (i : Nat) : Decidable (Closes cs i) :=
  inferInstanceAs (Decidable (_ <+: _))

@[simp] theorem closes_cons : Closes (c :: cs) (i + 1) ↔ Closes cs i := by
  rw [Closes, List.drop_succ_cons, Closes]

theorem FirstClose.cons (h : FirstClose k cs i) (c : Char) :
    FirstClose (k + 1) (c :: cs) (i + 1) where
  from_le := Nat.succ_le_succ h.from_le
  closes := closes_cons.mpr h.closes
  first j hk hj := by
    obtain ⟨j, rfl⟩ : ∃ m, j = m + 1 := ⟨j - 1, by omega⟩
    rw [closes_cons]
    exact h.first j (by omega) (by omega)

/-- An end may be looked for from one place earlier, if none stands there. -/
theorem FirstClose.earlier (h : FirstClose (k + 1) cs i) (hk : ¬ Closes cs k) :
    FirstClose k cs i where
  from_le := Nat.le_of_succ_le h.from_le
  closes := h.closes
  first j hj hi := by
    obtain rfl | hlt := Nat.eq_or_lt_of_le hj
    · exact hk
    · exact h.first j hlt hi

theorem FirstClose.unique {j : Nat} (h : FirstClose k cs i) (h' : FirstClose k cs j) : i = j := by
  obtain hlt | heq | hgt := Nat.lt_trichotomy i j
  · exact absurd h.closes (h'.first i h.from_le hlt)
  · exact heq
  · exact absurd h'.closes (h.first j h'.from_le hgt)

/-- What is looked for is the first end, if there is one. -/
theorem closingComment_some (h : closingComment cs = some n) :
    ∃ i, n = i + 2 ∧ FirstClose 0 cs i := by
  fun_induction closingComment cs generalizing n with
  | case1 => cases h
  | case2 ds =>
    cases h
    exact ⟨0, rfl, Nat.le_refl 0, ⟨ds, rfl⟩, fun j _ hj => absurd hj (Nat.not_lt_zero j)⟩
  | case3 c ds hne ih =>
    obtain ⟨m, hm, rfl⟩ := Option.map_eq_some_iff.mp h
    obtain ⟨i, rfl, hi⟩ := ih hm
    refine ⟨i + 1, by omega, (hi.cons c).earlier ?_⟩
    rintro ⟨rest, hrest⟩
    cases hrest
    exact hne rest rfl rfl

theorem closingComment_none (h : closingComment cs = none) (i : Nat) : ¬ Closes cs i := by
  fun_induction closingComment cs generalizing i with
  | case1 => simp [Closes]
  | case2 => cases h
  | case3 c ds hne ih =>
    cases i with
    | zero =>
      rintro ⟨rest, hrest⟩
      cases hrest
      exact hne rest rfl rfl
    | succ i =>
      rw [closes_cons]
      exact ih (Option.map_eq_none_iff.mp h) i

/-- Cut behind its first end, a text ends there. -/
theorem FirstClose.take (h : FirstClose k cs i) : ClosesLast k (cs.take (i + 2)) := by
  have hlen : i + 2 ≤ cs.length := by
    have := h.closes.length_le
    simp only [List.length_cons, List.length_nil, List.length_drop] at this
    omega
  refine ⟨i, ⟨h.from_le, ?_, fun j hk hj hc => h.first j hk hj ?_⟩, by simp [hlen]⟩
  · have := h.closes
    rw [Closes, List.drop_take, List.prefix_take_iff]
    exact ⟨this, by simp⟩
  · rw [Closes, List.drop_take, List.prefix_take_iff] at hc
    exact hc.1

/-- A text that ends at its first end from the place behind `k` on does so from `k` on, unless an
end stands there. -/
theorem ClosesLast.earlier_iff (h : ClosesLast (k + 1) cs) : ClosesLast k cs ↔ ¬ Closes cs k := by
  obtain ⟨i, hi, hlen⟩ := h
  constructor
  · rintro ⟨j, hj, hlen'⟩ hk
    have hlt : k < j := by have := hi.from_le; omega
    exact hj.first k (Nat.le_refl k) hlt hk
  · exact fun hk => ⟨i, hi.earlier hk, hlen⟩

/-- A comment that ends behind its second star has an end at that star too exactly if it starts
like an empty one. -/
theorem closes_two_iff {rest : List Char} (hs : ['/', '*'] <+: cs) (hr : cs <+: rest)
    (h : ClosesLast 3 cs) : Closes cs 2 ↔ ['/', '*', '*', '/'] <+: rest := by
  obtain ⟨i, hi, hlen⟩ := h
  have hfour : 4 ≤ cs.length := by have := hi.from_le; omega
  obtain ⟨ds, rfl⟩ := hs
  have hstart : Closes (['/', '*'] ++ ds) 2 ↔ ['/', '*', '*', '/'] <+: ['/', '*'] ++ ds := by
    simp [Closes]
  rw [hstart]
  exact ⟨fun h => h.trans hr, fun h => List.prefix_of_prefix_length_le h hr hfour⟩

/-- A comment with two stars ends at the first end behind both. -/
theorem docComment_some (h : docComment cs = some n) :
    ∃ i, n = i + 2 ∧ FirstClose 3 cs i ∧ ['/', '*', '*'] <+: cs := by
  unfold docComment at h
  split at h
  · rename_i ds
    obtain ⟨m, hm, rfl⟩ := Option.map_eq_some_iff.mp h
    obtain ⟨i, rfl, hi⟩ := closingComment_some hm
    exact ⟨i + 3, by omega, ((hi.cons '*').cons '*').cons '/', ds, rfl⟩
  · cases h

theorem docComment_none (h : docComment ('/' :: '*' :: '*' :: ds) = none) (hi : 3 ≤ i) :
    ¬ Closes ('/' :: '*' :: '*' :: ds) i := by
  obtain ⟨i, rfl⟩ : ∃ m, i = m + 3 := ⟨i - 3, by omega⟩
  simp only [closes_cons]
  exact closingComment_none (Option.map_eq_none_iff.mp h) i

/-- Any other comment in brackets ends at the first end behind its start. -/
theorem comment_some (h : comment ('/' :: '*' :: ds) = some n) :
    ∃ i, n = i + 2 ∧ FirstClose 2 ('/' :: '*' :: ds) i := by
  have hline : lineComment ('/' :: '*' :: ds) = none := rfl
  simp only [comment, orElse, hline] at h
  obtain ⟨m, hm, rfl⟩ : ∃ m, closingComment ds = some m ∧ 2 + m = n := by
    simpa [blockComment] using h
  obtain ⟨i, rfl, hi⟩ := closingComment_some hm
  exact ⟨i + 2, by omega, (hi.cons '*').cons '/'⟩

end Docblock.Token.Pattern

namespace Docblock.Token

open Rule Pattern

def Rule.docComment : Rule := counting (plain .docComment Pattern.docComment)

def Rule.comment : Rule := counting (plain .comment Pattern.comment)

def commentKinds : List Kind := [.comment, .docComment]

theorem comment_codeClasses : ∀ r ∈ codeClasses, ∀ cs, r.kind cs ∈ commentKinds →
    r = Rule.docComment ∨ r = Rule.comment := by
  have hname : ∀ cs, kindOfName cs ∉ commentKinds :=
    kindOfName_forall (P := (· ∉ commentKinds)) (by decide) (by decide)
  simp only [codeClasses, Rule.casts, castWords, List.forall_mem_append, List.forall_mem_map,
    List.forall_mem_cons]
  repeat' apply And.intro
  all_goals first
    | exact fun _ _ => Or.inl rfl
    | exact fun _ _ => Or.inr rfl
    | exact fun cs h => absurd h (hname cs)
    | simp [plain, withEffect, counting, commentKinds]

theorem comment_codeSigns : ∀ r ∈ codeSigns, ∀ cs, r.kind cs ∉ commentKinds := by
  simp [codeSigns, fixed, plain, commentKinds]

/-- Comments are found in code, and by their two rules only. -/
theorem Mode.comment_rules (m : Mode) {r : Rule} (hr : r ∈ m.rules) {cs : List Char}
    (hk : r.kind cs ∈ commentKinds) : m = .code ∧ (r = Rule.docComment ∨ r = Rule.comment) := by
  by_cases hm : m = .code
  · subst hm
    refine ⟨rfl, ?_⟩
    obtain hr | hr := List.mem_append.mp hr
    · exact comment_codeClasses r hr cs hk
    · exact absurd hk (comment_codeSigns r hr cs)
  · have hother : ∀ r ∈ m.rules, ∀ cs, r.kind cs ∉ commentKinds := by
      have htag : ∀ cs, tagKind cs ∉ commentKinds := by
        intro cs
        simp only [tagKind]
        split <;> decide
      cases m
      case code => exact absurd rfl hm
      case html =>
        simp only [Mode.rules, List.forall_mem_cons]
        exact ⟨htag, by simp [plain, counting, commentKinds], by simp⟩
      all_goals simp [Mode.rules, plain, withEffect, counting, commentKinds]
    exact absurd hk (hother r hr cs)

end Docblock.Token

namespace Docblock.Lexer

open Token Pattern

variable {l l' : Lexer} {t : Token} {n : Nat} {ds : List Char}

theorem scan_firstMatch {left : List Char} (h : l.scan left = .token t l') :
    ∃ r n, firstMatch l.mode.rules l.behind l.rest = some (r, n) ∧
      (l.advance r n).apply (l.spelling r n) r.effect = .token t l' := by
  simp only [scan] at h
  split at h
  · cases h
  · rename_i r n hm
    exact ⟨r, n, hm, h⟩

/-- A token comes from the first rule of the mode that matches. -/
theorem next_firstMatch (h : l.next = .token t l') :
    ∃ r n, firstMatch l.mode.rules l.behind l.rest = some (r, n) ∧
      (l.advance r n).apply (l.spelling r n) r.effect = .token t l' := by
  simp only [next] at h
  split at h
  · split at h <;> cases h
  · split at h
    · split at h
      · cases h
      · exact scan_firstMatch h
    · split at h
      · cases h
      · exact scan_firstMatch h

/-- Where a comment with two stars can be read, it is. -/
theorem firstMatch_docComment (behind : Option Char)
    (h : docComment ('/' :: '*' :: ds) = some n) :
    firstMatch Mode.code.rules behind ('/' :: '*' :: ds) = some (Rule.docComment, n) := by
  have hrule : Rule.docComment.length? behind ('/' :: '*' :: ds) = some n := h
  exact firstMatch_of_kind .docComment rfl rfl hrule

/-- A comment in brackets is a token of code. One of two stars ends at the first end behind both
stars, and it is read if there is such an end; another ends at the first end behind its start. -/
theorem next_comment (h : l.next = .token t l') (hk : t.kind ∈ commentKinds)
    (hs : ['/', '*'] <+: t.text.toList) :
    (t.kind = .docComment ∧ ClosesLast 3 t.text.toList ∧ ∃ i, 3 ≤ i ∧ Closes l.rest i) ∨
    (t.kind = .comment ∧ ClosesLast 2 t.text.toList ∧
      (['/', '*', '*'] <+: l.rest → ∀ i, 3 ≤ i → ¬ Closes l.rest i)) := by
  obtain ⟨r, n, hm, ha⟩ := next_firstMatch h
  obtain ⟨hr, hn⟩ := firstMatch_some hm
  obtain rfl | ⟨-, he⟩ := apply_kind ha
  · obtain ⟨hcode, hrule⟩ := l.mode.comment_rules hr hk
    obtain ⟨ds, hrest⟩ : ∃ ds, l.rest = '/' :: '*' :: ds := by
      obtain ⟨rest, hrest⟩ := hs.trans (token_at h).2.2
      exact ⟨rest, hrest.symm⟩
    simp only [spelling, String.toList_ofList, hrest]
    rw [hrest] at hn hm
    obtain rfl | rfl := hrule
    · obtain ⟨i, rfl, hi, -⟩ := docComment_some (pattern_of_length? hn)
      exact Or.inl ⟨rfl, hi.take, i, hi.from_le, hi.closes⟩
    · obtain ⟨i, rfl, hi⟩ := comment_some (pattern_of_length? hn)
      refine Or.inr ⟨rfl, hi.take, ?_⟩
      rintro ⟨es, hes⟩ j hj
      obtain rfl : '*' :: es = ds := by simpa using hes
      cases hd : docComment ('/' :: '*' :: '*' :: es) with
      | none => exact docComment_none hd hj
      | some m =>
        rw [hcode, firstMatch_docComment l.behind hd] at hm
        have hkind := congrArg (fun m => m.1.kind []) (Option.some.inj hm)
        cases hkind
  · rw [he] at hk
    exact absurd hk (by decide)

/-- Whatever text is read and in whatever state of the lexer it is started on, a comment in brackets
ends at its first end. With two stars the end is looked for behind both: so an empty comment, of
two stars, goes on to a later end, if the text has one. -/
theorem comment_closes (l : Lexer) (cs : List Char) (n : Nat) :
    let p := (l.input cs).atCall n
    ∀ t p', p.next = .token t p' → t.kind ∈ commentKinds → ['/', '*'] <+: t.text.toList →
      ClosesLast (if t.kind = .docComment then 3 else 2) t.text.toList ∧
      (ClosesLast 2 t.text.toList ↔ ¬ (['/', '*', '*', '/'] <+: cs.drop p.pos.toNat ∧
        ∃ i, 3 ≤ i ∧ Closes (cs.drop p.pos.toNat) i)) := by
  intro p t p' h hk hs
  have hrest : p.rest = cs.drop p.pos.toNat := (within_atCall l cs n).rest
  rw [← hrest]
  obtain ⟨hdoc, hlast, hlater⟩ | ⟨hplain, hlast, hnone⟩ := next_comment h hk hs
  · rw [if_pos hdoc, hlast.earlier_iff, closes_two_iff hs (token_at h).2.2 hlast]
    exact ⟨hlast, by simp [hlater]⟩
  · rw [hplain]
    refine ⟨hlast, fun _ hempty => ?_, fun _ => hlast⟩
    obtain ⟨hstart, i, hi, hclose⟩ := hempty
    exact hnone ((List.prefix_append ['/', '*', '*'] ['/']).trans hstart) i hi hclose

/-- The comment between the two statements is not empty, though it has two stars. -/
theorem comment_closes_documented :
    ∃ t p', ((initial.input "<?php f(); /** a */ g(); /**/".toList).atCall 6).next = .token t p' ∧
      t.kind ∈ commentKinds ∧ ['/', '*'] <+: t.text.toList ∧ ClosesLast 2 t.text.toList := by
  refine ⟨⟨.docComment, "/** a */", 1, 11⟩, _, rfl, by decide, by decide, ?_⟩
  exact (comment_closes initial "<?php f(); /** a */ g(); /**/".toList 6 _ _ rfl (by decide)
    (by decide)).2.mpr fun h => absurd h.1 (by decide)

/-- An empty comment takes in the code up to the end of the next comment. -/
theorem comment_swallows :
    ∃ t p', ((initial.input "<?php /**/ f(); /* a */".toList).atCall 1).next = .token t p' ∧
      t.kind ∈ commentKinds ∧ ['/', '*'] <+: t.text.toList ∧ ¬ ClosesLast 2 t.text.toList := by
  refine ⟨⟨.docComment, "/**/ f(); /* a */", 1, 6⟩, _, rfl, by decide, by decide, ?_⟩
  rintro ⟨i, hi, hlen⟩
  have hfirst : FirstClose 2 "/**/ f(); /* a */".toList 2 :=
    ⟨Nat.le_refl 2, by decide, fun j hk hj => absurd hk (Nat.not_le.mpr hj)⟩
  cases hi.unique hfirst
  cases hlen

end Docblock.Lexer
