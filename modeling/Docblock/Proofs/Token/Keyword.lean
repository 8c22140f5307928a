import Docblock.Grammar.Production
import Docblock.Proofs.Token.Filter
import Docblock.Proofs.Token.Modes

/-! Reserved words in upper and in lower case, and the tokens that are reserved words. -/
namespace Docblock.Token

open Rule Grammar

variable {c : Char} {cs : List Char} {k : Kind}

theorem ascii_cases : (List.range 128).all (fun n =>
    (Char.ofNat n).toUpper.toLower == (Char.ofNat n).toLower &&
      (Char.ofNat n).toLower.toNat < 0x80) = true := by
  decide

/-- In ASCII, upper case makes no difference to lower case, which is ASCII again. -/
theorem toLower_of_ascii (h : c.toNat < 0x80) :
    c.toUpper.toLower = c.toLower ∧ c.toLower.toNat < 0x80 := by
  have hc := List.all_eq_true.mp ascii_cases c.toNat (List.mem_range.mpr h)
  rw [Char.ofNat_toNat, Bool.and_eq_true, beq_iff_eq, decide_eq_true_eq] at hc
  exact hc

/-- A character beyond ASCII stays in lower case. -/
theorem toLower_of_not_ascii (h : ¬ c.toNat < 0x80) : c.toLower = c := by
  refine dif_neg ?_
  rintro ⟨-, hle⟩
  exact h (Nat.lt_of_le_of_lt (UInt32.le_iff_toNat_le.mp hle) (by decide))

theorem upper_of_ascii (h : c.toNat < 0x80) : upper c = [c.toUpper] := by
  unfold upper
  split
  all_goals first | rfl | omega

theorem ascii_keywords :
    (keywords.all fun p => p.1.toList.all fun c => decide (c.toNat < 0x80)) = true := by
  decide +kernel

theorem toList_lower (s : String) : (lower s).toList = s.toList.map Char.toLower :=
  String.toList_map

theorem mem_keywords {s : String} (h : keywords.lookup s = some k) : (s, k) ∈ keywords := by
  obtain ⟨before, after, he, -⟩ := List.lookup_eq_some_iff.mp h
  exact he ▸ List.mem_append_right before List.mem_cons_self

theorem toLower_upper (h : ∀ c ∈ cs, c.toNat < 0x80) :
    (cs.flatMap upper).map Char.toLower = cs.map Char.toLower := by
  induction cs with
  | nil => rfl
  | cons c cs ih =>
    obtain ⟨hc, hcs⟩ := List.forall_mem_cons.mp h
    simp [upper_of_ascii hc, toLower_of_ascii hc, ih hcs]

/-- A word that is a reserved word in upper case is the same one in lower case just if it is
ASCII. -/
theorem lower_upper_iff (h : keywords.lookup (String.ofList (cs.flatMap upper)) = some k) :
    lower (String.ofList cs) = lower (String.ofList (cs.flatMap upper)) ↔
      ∀ c ∈ cs, c.toNat < 0x80 := by
  rw [← String.toList_inj, toList_lower, toList_lower, String.toList_ofList, String.toList_ofList]
  constructor
  · intro heq c hc
    refine Decidable.byContradiction fun hbeyond => ?_
    have hmem : c ∈ (cs.flatMap upper).map Char.toLower := by
      rw [← heq]
      exact List.mem_map.mpr ⟨c, hc, toLower_of_not_ascii hbeyond⟩
    obtain ⟨d, hd, rfl⟩ := List.mem_map.mp hmem
    have hword := List.all_eq_true.mp ascii_keywords _ (mem_keywords h)
    rw [String.toList_ofList] at hword
    exact hbeyond (toLower_of_ascii (of_decide_eq_true (List.all_eq_true.mp hword d hd))).2
  · exact fun hascii => (toLower_upper hascii).symm

/-- The kinds of reserved words. -/
def keywordKinds : List Kind := keywords.map (·.2)

theorem keyword_codeRules : ∀ r ∈ Mode.code.rules, ∀ cs, r.kind cs ∈ keywordKinds →
    r.kind cs = kindOfName cs := by
  simp only [Mode.rules, codeClasses, Rule.casts, castWords, codeSigns, List.forall_mem_append,
    List.forall_mem_map, List.forall_mem_cons]
  dsimp only [plain, withEffect, counting, fixed]
  repeat' apply And.intro
  all_goals first
    | exact fun _ _ => trivial
    | exact fun _ h => absurd h (by decide)
    | exact fun r hr => absurd hr List.not_mem_nil

/-- A token that is a reserved word is a name that is that word. -/
theorem Mode.keyword_rules (m : Mode) {r : Rule} (hr : r ∈ m.rules) {cs : List Char}
    (hk : r.kind cs ∈ keywordKinds) : r.kind cs = kindOfName cs := by
  by_cases hm : m = .code
  · subst hm
    exact keyword_codeRules r hr cs hk
  · have hother : ∀ r ∈ m.rules, ∀ cs, r.kind cs ∉ keywordKinds := by
      have htag : ∀ cs, tagKind cs ∉ keywordKinds := by
        intro cs
        simp only [tagKind]
        split <;> decide
      cases m
      case code => exact absurd rfl hm
      case html =>
        simp only [Mode.rules, List.forall_mem_cons]
        dsimp only [plain, counting]
        exact ⟨htag, fun _ => by decide, by simp⟩
      all_goals
        simp only [Mode.rules, List.forall_mem_cons]
        dsimp only [plain, withEffect, counting]
        repeat' apply And.intro
        all_goals first
          | exact fun _ => by decide
          | exact fun r hr => absurd hr List.not_mem_nil
    exact absurd hk (hother r hr cs)

end Docblock.Token

namespace Docblock

open Token

variable {l l' m : Lexer} {f : Filter} {t : Token} {n : Nat} {ts : List Token}

theorem Lexer.next_keyword (h : l.next = .token t l') (hk : t.kind ∈ keywordKinds) :
    kindOfName t.text.toList = t.kind := by
  obtain ⟨r, hr, n, -, ha⟩ := next_token h
  obtain rfl | ⟨-, he⟩ := apply_kind ha
  · simp only [spelling, String.toList_ofList] at hk ⊢
    exact (l.mode.keyword_rules hr hk).symm
  · rw [he] at hk
    exact absurd hk (by decide)

theorem Lexer.calls_keyword {e : Option LexError} (h : Calls l n ts e m) :
    ∀ t ∈ ts, t.kind ∈ keywordKinds → kindOfName t.text.toList = t.kind := by
  induction h with
  | finished | failed => simp
  | token h _ ih => exact List.forall_mem_cons.mpr ⟨next_keyword h, ih⟩

/-- The filter adds no token but an echo and a semicolon. -/
theorem Filter.mem_transduce {last : Option Kind} (h : t ∈ transduce last ts)
    (hk : t.kind ∉ [.kwEcho, .semi]) : t ∈ ts := by
  induction ts generalizing last with
  | nil => exact h
  | cons u ts ih =>
    rw [transduce] at h
    split at h
    · exact List.mem_cons_of_mem _ (ih h)
    · rename_i k hp
      obtain rfl | h := List.mem_cons.mp h
      · exact List.mem_cons.mpr (Or.inl ((emitted_eq hp).resolve_right hk))
      · exact List.mem_cons_of_mem _ (ih h)

/-- A token that is a reserved word, and was not a tag, is a name that is that word. -/
theorem Filter.keyword_of_stream (h : t ∈ f.stream.tokens) (hk : t.kind ∈ keywordKinds)
    (hecho : t.kind ≠ .kwEcho) : kindOfName t.text.toList = t.kind := by
  obtain ⟨n, -, hc⟩ := Lexer.calls_stream f.lexer
  rw [(stream_lexer f).1] at h
  refine Lexer.calls_keyword hc t (mem_transduce h ?_) hk
  have hsemi : t.kind ≠ .semi := by
    intro he
    rw [he] at hk
    exact absurd hk (by decide)
  simp [hecho, hsemi]

end Docblock
