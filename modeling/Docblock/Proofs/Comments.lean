import Docblock.Proofs.Grammar.Comments
import Docblock.Proofs.Source

/-! The comments of a source are those of its text. -/
namespace Docblock

open Token Grammar Docblock.Filter

variable {f g : Filter} {file : Option String} {text : List Char} {ts : List Tree} {t : Token}
  {last last' : Option Kind} {k : Kind}

namespace Filter

theorem isComment_of_dropped (h : fate last t.kind = .dropped last') : t.isComment = false := by
  obtain ⟨hk, -⟩ | hk | ⟨hk, -⟩ := fate_dropped h
  all_goals simp [Token.isComment, hk]

/-- A token that is handed on stays as it is, or it is no comment before and after. -/
theorem isComment_of_emitted (h : fate last t.kind = .emitted k) :
    { t with kind := k } = t ∨
      { t with kind := k }.isComment = false ∧ t.isComment = false := by
  obtain rfl | ⟨hk, rfl⟩ | ⟨hk, rfl⟩ := fate_emitted h
  · exact Or.inl rfl
  all_goals exact Or.inr ⟨rfl, by simp [Token.isComment, hk]⟩

/-- The filter hands every comment on. -/
theorem transduce_comments (last : Option Kind) (ts : List Token) :
    (transduce last ts).filter Token.isComment = ts.filter Token.isComment := by
  induction ts generalizing last with
  | nil => rfl
  | cons t ts ih =>
    rw [transduce]
    split
    · rename_i last' hp
      rw [ih, List.filter_cons_of_neg (by simp [isComment_of_dropped hp])]
    · rename_i k hp
      obtain he | ⟨hk, ht⟩ := isComment_of_emitted hp
      · rw [he, List.filter_cons, List.filter_cons, ih]
      · rw [List.filter_cons_of_neg (by simp [hk]), List.filter_cons_of_neg (by simp [ht]), ih]

end Filter

/-- The comments anywhere in the trees of a source are the comments among the tokens of its text:
none is lost, none is there twice, and their texts are unchanged. -/
theorem parse_comments (h : f.parse file text = (.ok ts, g)) :
    Tree.commentsIn ts = spokenIn (f.input text).lexer.stream.tokens := by
  obtain ⟨-, -, d, hd, hv⟩ := parse_ok h
  have hfilter : spokenIn (f.input text).stream.tokens =
      spokenIn (f.input text).lexer.stream.tokens := by
    rw [spokenIn, spokenIn, (stream_lexer _).1, transduce_comments]
  exact (d.commentsIn_trees hv).trans (hd ▸ hfilter)

/-- The comments stand in an index and in an argument, which change places in the tree. -/
theorem parse_comments_chain :
    ∃ ts g, (fresh []).parse none
        "<?php /** a */ $x->f[function() \x7b /* b */ \x7d](function() \x7b // c\n \x7d);".toList =
          (.ok ts, g) ∧
      Tree.commentsIn ts = spokenIn ((fresh []).input
        "<?php /** a */ $x->f[function() \x7b /* b */ \x7d](function() \x7b // c\n \x7d);".toList
        ).lexer.stream.tokens ∧ (Tree.commentsIn ts).card = 3 := by
  obtain ⟨ts, g, h⟩ := exists_parse_ok (fresh []) none
    "<?php /** a */ $x->f[function() \x7b /* b */ \x7d](function() \x7b // c\n \x7d);".toList
    (by rw [String.toList_ofList]; decide +kernel)
  refine ⟨ts, g, h, parse_comments h, ?_⟩
  rw [parse_comments h, String.toList_ofList]
  decide +kernel

end Docblock
