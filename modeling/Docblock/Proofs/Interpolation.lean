import Docblock.Proofs.Automaton.Literals
import Docblock.Proofs.Token.Name
import Docblock.Tree.Equality
import Mathlib.Data.List.Chain

/-! Text between double quotes: its pieces, and the two ways to write a property in it. -/
namespace Docblock

open Token Text Grammar Automaton.Fragment

namespace Token.Pattern

variable {cs rest : List Char} {c : Char}

theorem quotedRun_append (h : ∀ c ∈ cs, c ∉ quotedMarks) (rest : List Char) :
    quotedRun (cs ++ rest) = cs.length + quotedRun rest := by
  induction cs with
  | nil => simp
  | cons c cs ih =>
    obtain ⟨hc, hcs⟩ := List.forall_mem_cons.mp h
    rw [List.cons_append, quotedRun_cons hc, ih hcs, List.length_cons]
    omega

/-- Literal text is matched up to what ends it. -/
theorem quotedText_append (hne : cs ≠ []) (h : ∀ c ∈ cs, c ∉ quotedMarks)
    (hrest : quotedRun rest = 0) : quotedText (cs ++ rest) = some cs.length := by
  have hpos : cs.length ≠ 0 := fun he => hne (List.length_eq_zero_iff.mp he)
  rw [quotedText, quotedRun_append h, hrest, Nat.add_zero, nonzero, if_neg hpos]

theorem not_mem_quotedMarks (h : isWord c = true) : c ∉ quotedMarks := by
  intro hc
  simp only [quotedMarks, List.mem_cons, List.not_mem_nil, or_false] at hc
  rcases hc with rfl | rfl | rfl | rfl <;> revert h <;> decide

end Token.Pattern

open Token.Pattern

namespace Lexer.View

variable {b : Option Char} {m : Mode} {ms : List Mode} {label : Option (List Char)}
  {cs rest : List Char}

/-- A part of a text between quotes, up to what ends it. -/
theorem next_encapsed (hne : cs ≠ []) (hrun : quotedRun (cs ++ rest) = cs.length) :
    ∃ b', next ⟨.quoted, ms, label, b, cs ++ rest⟩ =
      some ((.encapsed, String.ofList cs), ⟨.quoted, ms, label, b', rest⟩) := by
  have hlength : cs.length ≠ 0 := fun he => hne (List.length_eq_zero_iff.mp he)
  have hquote : exactly "\"" (cs ++ rest) = none := by
    obtain ⟨c, cs, rfl⟩ := List.exists_cons_of_ne_nil hne
    have hc : '"' ≠ c := by
      rintro rfl
      exact hlength hrun.symm
    simp [exactly, hc]
  have htext : quotedText (cs ++ rest) = some cs.length := by
    rw [quotedText, hrun, nonzero, if_neg hlength]
  have hm : firstMatch Mode.quoted.rules b (cs ++ rest) =
      some (Rule.counting (Rule.plain .encapsed quotedText), cs.length) := by
    refine firstMatch_of_kind .encapsed rfl ?_ htext
    simp [firstMatch, rulesBefore, Mode.rules, Rule.withEffect, Rule.counting, Rule.plain,
      Rule.length?, hquote]
  exact ⟨_, next_taken cs hm rfl⟩

/-- Literal text between quotes. -/
theorem next_quotedText (hne : cs ≠ []) (hcs : ∀ c ∈ cs, c ∉ quotedMarks)
    (hrest : quotedRun rest = 0) :
    ∃ b', next ⟨.quoted, ms, label, b, cs ++ rest⟩ =
      some ((.encapsed, String.ofList cs), ⟨.quoted, ms, label, b', rest⟩) :=
  next_encapsed hne (by rw [quotedRun_append hcs, hrest, Nat.add_zero])

/-- A brace before a variable between quotes. -/
theorem next_curlyOpen : next ⟨.quoted, ms, label, b, '{' :: '$' :: cs⟩ =
    some ((.curlyOpen, "\x7b"), ⟨.code, .quoted :: ms, label, some '{', '$' :: cs⟩) := rfl

theorem next_rightBrace : next ⟨.code, m :: ms, label, b, '}' :: cs⟩ =
    some ((.rightBrace, "\x7d"), ⟨m, ms, label, some '}', cs⟩) := rfl

/-- A dollar sign and a brace before a name between quotes. -/
theorem next_dollarCurly (v : Name) : next ⟨.quoted, ms, label, b, '$' :: '{' :: (v.chars ++ cs)⟩ =
    some ((.dollarCurly, "$\x7b"), ⟨.varName, .quoted :: ms, label, some '{', v.chars ++ cs⟩) := by
  refine next_taken ['$', '{'] (r := Rule.withEffect .dollarCurly (exactly "$\x7b")
    (.pushByName .varName .code)) rfl ?_
  simp only [seen, Rule.withEffect, Lexer.apply, Lexer.atName, lexer, startsWith, Name.chars,
    List.cons_append, v.isNameStart_head, if_true]
  rfl

theorem next_closeName : next ⟨.varName, m :: ms, label, b, '}' :: cs⟩ =
    some ((.rightBrace, "\x7d"), ⟨m, ms, label, some '}', cs⟩) := rfl

/-- Up to the text between quotes, behind a word. -/
theorem reads_returnQuote (cs : List Char) : Reads (ofText ("<?php return \"".toList ++ cs))
    [(.kwReturn, "return"), (.quote, "\"")] ⟨.quoted, [.code], none, some '"', cs⟩ := by
  have hspace : next ⟨.code, [], none, some 'n', ' ' :: '"' :: cs⟩ =
      some ((.whitespace, " "), ⟨.code, [], none, some ' ', '"' :: cs⟩) := rfl
  exact (reads_return ('"' :: cs)).trans
    (.skip hspace (by decide) (.hand next_quote (by decide) (.refl _)))

/-- Up to the text between quotes, as a statement. -/
theorem reads_openQuote (cs : List Char) : Reads (ofText ("<?php \"".toList ++ cs))
    [(.quote, "\"")] ⟨.quoted, [.code], none, some '"', cs⟩ :=
  .skip (next_openTag ('"' :: cs)) (by decide) (.hand next_quote (by decide) (.refl _))

/-- From the end of the text between quotes to the end of the source. -/
theorem reads_end : ∃ v : View, Reads ⟨.quoted, [.code], none, b, "\";".toList⟩
    [(.quote, "\""), (.semi, ";")] v ∧ v.rest = [] := by
  have hquote : next ⟨.quoted, [.code], none, b, ['"', ';']⟩ =
      some ((.quote, "\""), ⟨.code, [], none, some '"', [';']⟩) := rfl
  exact ⟨_, .hand hquote (by decide) (.hand next_semi (by decide) (.refl _)), rfl⟩

end Lexer.View

/-- A character that stands for itself in a text between quotes. -/
def isPlain (c : Char) : Bool := c.toNat < 0x80 && !quotedMarks.contains c

/-- A piece of a text between quotes: literal text, or a variable in one of two spellings. -/
inductive Piece where
  | literal (cs : List Char) (ne_nil : cs ≠ []) (plain : ∀ c ∈ cs, isPlain c = true)
  | braced (v : Name)
  | dollar (v : Name)

namespace Piece

def isLiteral : Piece → Bool
  | .literal .. => true
  | _ => false

def spelled : Piece → List Char
  | .literal cs _ _ => cs
  | .braced v => '{' :: '$' :: (v.chars ++ ['}'])
  | .dollar v => '$' :: '{' :: (v.chars ++ ['}'])

def tree : Piece → Tree
  | .literal cs _ _ => .text (String.ofList cs)
  | .braced v | .dollar v => .node .var none [.text v.asVariable]

/-- Two pieces with a point between them. -/
def concat (t u : Tree) : Tree := .node .binaryOp none [.text ".", t, u]

/-- The tree of some pieces in a row. -/
def joined : List Piece → Tree
  | [] => .text ""
  | p :: ps => (ps.map tree).foldl concat p.tree

/-- No two literal pieces are side by side. -/
def Separate (ps : List Piece) : Prop :=
  ps.IsChain fun p q => ¬ (p.isLiteral = true ∧ q.isLiteral = true)

/-- The tokens of a piece. -/
def words : Piece → List (Kind × String)
  | .literal cs _ _ => [(.encapsed, String.ofList cs)]
  | .braced v => [(.curlyOpen, "\x7b"), (.var, v.asVariable), (.rightBrace, "\x7d")]
  | .dollar v => [(.dollarCurly, "$\x7b"), (.varName, v.text), (.rightBrace, "\x7d")]

theorem isPlain_iff {c : Char} : isPlain c = true ↔ c.toNat < 0x80 ∧ c ∉ quotedMarks := by
  simp [isPlain]

variable {b : Option Char} {ms : List Mode} {label : Option (List Char)} {cs rest : List Char}
  {ps : List Piece} {file : Option String} {ts us : List Token} {before : Tree}

open Lexer.View in
/-- A piece is read as its tokens, if it does not run on behind its end. -/
theorem reads_piece (p : Piece) (h : p.isLiteral = true → quotedRun rest = 0) :
    ∃ b', Reads ⟨.quoted, ms, label, b, p.spelled ++ rest⟩ p.words
      ⟨.quoted, ms, label, b', rest⟩ := by
  cases p with
  | literal cs hne hplain =>
    have hmarks : ∀ c ∈ cs, c ∉ quotedMarks := fun c hc => (isPlain_iff.mp (hplain c hc)).2
    obtain ⟨b', hn⟩ := next_quotedText (b := b) hne hmarks (h rfl)
    exact ⟨b', .hand hn (by decide) (.refl _)⟩
  | braced v =>
    obtain ⟨b', hv⟩ := next_variable v ('}' :: rest) rfl
    simp only [spelled, List.cons_append, List.append_assoc, List.nil_append]
    exact ⟨_, .hand next_curlyOpen (by decide) (.hand hv (by decide)
      (.hand next_rightBrace (by decide) (.refl _)))⟩
  | dollar v =>
    obtain ⟨b', hv⟩ := next_varName v ('}' :: rest) rfl
    simp only [spelled, List.cons_append, List.append_assoc, List.nil_append]
    exact ⟨_, .hand (next_dollarCurly v) (by decide) (.hand hv (by decide)
      (.hand next_closeName (by decide) (.refl _)))⟩

/-- Where no literal piece follows, literal text ends. -/
theorem quotedRun_spelled (h : ∀ p ∈ ps.head?, p.isLiteral = false) (cs : List Char) :
    quotedRun (ps.flatMap spelled ++ '"' :: cs) = 0 := by
  cases ps with
  | nil => rfl
  | cons p ps =>
    cases p with
    | literal => cases h _ rfl
    | braced => rfl
    | dollar => rfl

open Lexer.View in
/-- Pieces are read as their tokens, up to the closing quote. -/
theorem reads_pieces (hps : Separate ps) (cs : List Char) :
    ∃ b', Reads ⟨.quoted, ms, label, b, ps.flatMap spelled ++ '"' :: cs⟩ (ps.flatMap words)
      ⟨.quoted, ms, label, b', '"' :: cs⟩ := by
  induction ps generalizing b with
  | nil => exact ⟨b, .refl _⟩
  | cons p ps ih =>
    obtain ⟨hhead, htail⟩ := List.isChain_cons.mp hps
    have hend : p.isLiteral = true → quotedRun (ps.flatMap spelled ++ '"' :: cs) = 0 := by
      intro hp
      refine quotedRun_spelled (fun q hq => ?_) cs
      exact Bool.not_eq_true _ ▸ fun hl => hhead q hq ⟨hp, hl⟩
    obtain ⟨b₁, hpiece⟩ := reads_piece (b := b) p hend
    obtain ⟨b₂, hpieces⟩ := ih htail (b := b₁)
    rw [List.flatMap_cons, List.flatMap_cons, List.append_assoc]
    exact ⟨b₂, hpiece.trans hpieces⟩

/-- A piece is added to the text before it. -/
theorem gives_piece (p : Piece) (h : Automaton.literals.Gives file .encapsList ts (.ok before))
    (hus : us.map Token.word = p.words) :
    ∃ line t, Automaton.literals.Gives file .encapsList (ts ++ us)
      (.ok (interpolate line before t)) ∧ t.same p.tree = true ∧ t ≠ .text "" := by
  cases p with
  | literal cs hne hplain =>
    obtain ⟨t, rfl, hword⟩ := List.map_eq_singleton_iff.mp hus
    obtain ⟨hkind, htext⟩ := Prod.mk.inj hword
    have hchars : ∀ c ∈ t.text.toList, c.toNat < 0x80 ∧ c ≠ '\\' := by
      intro c hc
      rw [htext, String.toList_ofList] at hc
      obtain ⟨hascii, hmark⟩ := isPlain_iff.mp (hplain c hc)
      exact ⟨hascii, fun he => hmark (he ▸ by decide)⟩
    refine ⟨t.line, .text t.text, gives_plainPart h hkind hchars, ?_, ?_⟩
    · simp [tree, Tree.same, htext]
    · simp [htext, hne]
  | braced v =>
    simp only [words, List.map_eq_cons_iff, List.map_eq_nil_iff] at hus
    obtain ⟨q, -, rfl, hq, t, -, rfl, ht, r, -, rfl, hr, rfl⟩ := hus
    obtain ⟨hkind, htext⟩ := Prod.mk.inj ht
    have hvar : Automaton.literals.Gives file .encapsVar [q, t, r] (.ok (variableNode t)) :=
      gives_bracedVar (congrArg Prod.fst hq) hkind (congrArg Prod.fst hr)
    refine ⟨0, variableNode t, gives_varPart h hvar, ?_, by simp [variableNode, node]⟩
    simp [tree, variableNode, node, Tree.same, Tree.sameAll, htext]
  | dollar v =>
    simp only [words, List.map_eq_cons_iff, List.map_eq_nil_iff] at hus
    obtain ⟨q, -, rfl, hq, t, -, rfl, ht, r, -, rfl, hr, rfl⟩ := hus
    obtain ⟨hkind, htext⟩ := Prod.mk.inj ht
    have hvar : Automaton.literals.Gives file .encapsVar [q, t, r]
        (.ok (node t.line .var [.text ("$" ++ t.text)])) :=
      gives_dollarName (congrArg Prod.fst hq) hkind (congrArg Prod.fst hr)
    refine ⟨0, _, gives_varPart h hvar, ?_, by simp [node]⟩
    simp [tree, node, Tree.same, Tree.sameAll, htext, Name.asVariable, Name.text]

/-- Pieces are added to the text before them, one after another. -/
theorem gives_pieces {whole : Tree} (hb : before ≠ .text "") (hsame : before.same whole = true)
    (h : Automaton.literals.Gives file .encapsList ts (.ok before))
    (hus : us.map Token.word = ps.flatMap words) :
    ∃ t, Automaton.literals.Gives file .encapsList (ts ++ us) (.ok t) ∧
      t.same ((ps.map tree).foldl concat whole) = true := by
  induction ps generalizing ts us before whole with
  | nil =>
    obtain rfl := List.map_eq_nil_iff.mp hus
    rw [List.append_nil]
    exact ⟨before, h, hsame⟩
  | cons p ps ih =>
    obtain ⟨us₁, us₂, rfl, h₁, h₂⟩ := List.map_eq_append_iff.mp hus
    obtain ⟨line, t, hpiece, ht, -⟩ := gives_piece p h h₁
    have hnode : interpolate line before t = node line .binaryOp [.text ".", before, t] := by
      unfold interpolate
      split
      · exact absurd rfl hb
      · rfl
    have hnew : (node line .binaryOp [.text ".", before, t]).same (concat whole p.tree) = true := by
      simp [node, concat, Tree.same, Tree.sameAll, hsame, ht]
    rw [hnode] at hpiece
    rw [← List.append_assoc]
    exact ih (by simp [node]) hnew hpiece h₂

theorem gives_joined (hus : us.map Token.word = ps.flatMap words) :
    ∃ t, Automaton.literals.Gives file .encapsList us (.ok t) ∧ t.same (joined ps) = true := by
  cases ps with
  | nil =>
    obtain rfl := List.map_eq_nil_iff.mp hus
    exact ⟨.text "", gives_noPart, by simp [joined, Tree.same]⟩
  | cons p ps =>
    obtain ⟨us₁, us₂, rfl, h₁, h₂⟩ := List.map_eq_append_iff.mp hus
    have hnone : Automaton.literals.Gives file .encapsList [] (.ok (.text "")) := gives_noPart
    obtain ⟨line, t, hpiece, ht, hne⟩ := gives_piece p hnone h₁
    exact gives_pieces hne ht hpiece h₂

end Piece

/-- A text between quotes stands for its pieces: nothing for none, the piece itself for one, else
all of them joined from the left. -/
theorem parse_interpolated (file : Option String) (ps : List Piece) (hps : Piece.Separate ps) :
    ∃ line t, ((Filter.fresh []).parse file
        ("<?php return \"".toList ++ ps.flatMap Piece.spelled ++ "\";".toList)).1 =
      .ok [.node .returnValue line [t]] ∧ t.same (Piece.joined ps) = true := by
  obtain ⟨b, hpieces⟩ := Piece.reads_pieces hps [';']
  obtain ⟨v, hend, hv⟩ := Lexer.View.reads_end
  rw [List.append_assoc]
  obtain ⟨ts, hts, hparse⟩ :=
    parse_view ((Lexer.View.reads_returnQuote _).trans (hpieces.trans hend)) hv
  obtain ⟨w, ts, rfl, hw, hts⟩ := List.map_eq_cons_iff.mp hts
  obtain ⟨q, us, r, s, rfl, hus, hq, hr, hs⟩ := enclosed_tokens hts
  obtain ⟨t, ht, hsame⟩ := Piece.gives_joined hus
  exact ⟨some w.line, t, hparse file _
    (gives_source (gives_return (congrArg Prod.fst hw) (gives_quoted hq ht hr) hs)), hsame⟩

/-- Literal text with marks of its own, before two variables in a row and behind them. -/
def mixedPieces : List Piece := [
  .literal "->[ '\x7d".toList (by decide) (List.all_eq_true.mp rfl),
  .braced ⟨'v', [], rfl, by simp⟩, .dollar ⟨'_', ['w'], rfl, List.all_eq_true.mp rfl⟩,
  .literal "\n".toList (by decide) (List.all_eq_true.mp rfl)]

theorem parse_interpolated_mixed :
    ∃ line t, ((Filter.fresh []).parse none
        "<?php return \"->[ '\x7d\x7b$v\x7d$\x7b_w\x7d\n\";".toList).1 =
      .ok [.node .returnValue line [t]] ∧
    t.same (Piece.concat (Piece.concat (Piece.concat (.text "->[ '\x7d")
      (.node .var none [.text "$v"])) (.node .var none [.text "$_w"])) (.text "\n")) = true :=
  parse_interpolated none mixedPieces (by simp [Piece.Separate, mixedPieces, Piece.isLiteral])

namespace Lexer.View

variable {b : Option Char} {m : Mode} {ms : List Mode} {label : Option (List Char)}
  {cs : List Char}

/-- A variable between quotes, without braces. -/
theorem next_quotedVar (v : Name) (cs : List Char) (hcs : startsWith isWord cs = false) :
    ∃ b', next ⟨.quoted, ms, label, b, '$' :: (v.chars ++ cs)⟩ =
      some ((.var, v.asVariable), ⟨.quotedVar, .quoted :: ms, label, b', cs⟩) := by
  have hrun : quotedRun ('$' :: (v.chars ++ cs)) = 0 := by
    simp [quotedRun, startsWith, Name.chars, isVarStart, v.isNameStart_head]
  have hm : firstMatch Mode.quoted.rules b ('$' :: (v.chars ++ cs)) =
      some (Rule.withEffect .var variableName (.push .quotedVar), ('$' :: v.chars).length) := by
    refine firstMatch_of_kind .var rfl ?_ ?_
    · have htext : quotedText ('$' :: (v.chars ++ cs)) = none := by rw [quotedText, hrun]; rfl
      simp [firstMatch, rulesBefore, Mode.rules, Rule.withEffect, Rule.counting, Rule.plain,
        Rule.length?, htext, exactly]
    · rw [List.length_cons, Nat.add_comm]
      exact variableName_name v hcs
  exact ⟨_, next_taken ('$' :: v.chars) hm rfl⟩

/-- Between quotes an arrow is looked for before a letter only. -/
theorem exactlyBefore_arrow (p : Name) (cs : List Char) :
    exactlyBefore "->" Char.isAlpha ('-' :: '>' :: (p.chars ++ cs)) =
      if p.head.isAlpha then some 2 else none := rfl

/-- An arrow behind such a variable, before a letter. -/
theorem next_quotedArrow (p : Name) (cs : List Char) (hp : p.head.isAlpha = true) :
    next ⟨.quotedVar, ms, label, b, '-' :: '>' :: (p.chars ++ cs)⟩ =
      some ((.objectOperator, "->"), ⟨.property, ms, label, some '>', p.chars ++ cs⟩) := by
  have hm : firstMatch Mode.quotedVar.rules b (['-', '>'] ++ (p.chars ++ cs)) =
      some (Rule.withEffect .objectOperator (exactlyBefore "->" Char.isAlpha) (.enter .property),
        ['-', '>'].length) := by
    refine firstMatch_of_kind .objectOperator rfl rfl ?_
    exact (exactlyBefore_arrow p cs).trans (if_pos hp)
  exact next_taken ['-', '>'] hm rfl

/-- Before any other name an arrow is literal text. -/
theorem next_literalArrow (p : Name) (cs : List Char) (hp : p.head.isAlpha = false) :
    ∃ b', next ⟨.quotedVar, m :: ms, label, b, '-' :: '>' :: (p.chars ++ '"' :: cs)⟩ =
      some ((.encapsed, String.ofList ('-' :: '>' :: p.chars)), ⟨m, ms, label, b', '"' :: cs⟩) := by
  have hmarks : ∀ c ∈ '-' :: '>' :: p.chars, c ∉ quotedMarks := by
    simp only [List.forall_mem_cons]
    exact ⟨by decide, by decide, fun c hc => not_mem_quotedMarks (p.isWord_chars c hc)⟩
  have harrow := (exactlyBefore_arrow p ('"' :: cs)).trans (if_neg (by simp [hp]))
  have hm : firstMatch Mode.quotedVar.rules b (('-' :: '>' :: p.chars) ++ '"' :: cs) =
      some (Rule.counting (Rule.withEffect .encapsed quotedText .pop),
        ('-' :: '>' :: p.chars).length) := by
    refine firstMatch_of_kind .encapsed rfl ?_
      (quotedText_append (by simp) hmarks rfl)
    simp [firstMatch, rulesBefore, Mode.rules, Rule.withEffect, Rule.counting, Rule.plain,
      Rule.length?, exactly, harrow, variableName]
  exact ⟨_, next_taken ('-' :: '>' :: p.chars) hm rfl⟩

/-- An arrow in code, before a name. -/
theorem next_arrow (p : Name) (cs : List Char) :
    next ⟨.code, ms, label, b, '-' :: '>' :: (p.chars ++ cs)⟩ =
      some ((.objectOperator, "->"), ⟨.property, .code :: ms, label, some '>', p.chars ++ cs⟩) := by
  refine next_taken ['-', '>'] (r := Rule.withEffect .objectOperator (exactly "->")
    (.pushAtName .property)) rfl ?_
  simp only [seen, Rule.withEffect, Lexer.apply, Lexer.atName, lexer, startsWith, Name.chars,
    List.cons_append, p.isNameStart_head, if_true]
  rfl

end Lexer.View

/-- A statement that is a text between quotes. -/
def quotedStatement (cs : List Char) : List Char := "<?php \"".toList ++ (cs ++ "\";".toList)

/-- A property of a variable as it is written in a text. -/
def Token.Name.dotted (v p : Name) : List Char := '$' :: (v.chars ++ '-' :: '>' :: p.chars)

/-- The tree of a property of a variable, with the lines of both. -/
def propertyNode (i j : Option Int) (v p : Name) : Tree :=
  .node .objectProperty i [.node .var j [.text v.asVariable], .text p.text]

variable {cs : List Char} {ws : List (Kind × String)}

open Lexer.View in
/-- Such a statement is read into the value of its parts. -/
theorem parse_quotedStatement
    (h : ∀ b, ∃ b', Reads ⟨.quoted, [.code], none, b, cs ++ "\";".toList⟩ ws
      ⟨.quoted, [.code], none, b', "\";".toList⟩) :
    ∃ us, us.map Token.word = ws ∧ ∀ file x, Automaton.literals.Gives file .encapsList us x →
      ((Filter.fresh []).parse file (quotedStatement cs)).1 = outcome (x.map ([·])) := by
  obtain ⟨b', hparts⟩ := h (some '"')
  obtain ⟨u, hend, hu⟩ := reads_end
  obtain ⟨ts, hts, hparse⟩ := parse_view ((reads_openQuote _).trans (hparts.trans hend)) hu
  obtain ⟨q, us, r, s, rfl, hus, hq, hr, hs⟩ := enclosed_tokens hts
  refine ⟨us, hus, fun file x hx => ?_⟩
  exact hparse file _ (gives_source (gives_expression (gives_quoted hq hx hr) hs))

open Lexer.View in
/-- Between braces a property is read under every name. -/
theorem parse_bracedProperty (file : Option String) (v p : Name) :
    ∃ i j, ((Filter.fresh []).parse file (quotedStatement ('{' :: (v.dotted p ++ ['}'])))).1 =
      .ok [propertyNode i j v p] := by
  have hreads : ∀ b, ∃ b', Reads ⟨.quoted, [.code], none, b,
        '{' :: (v.dotted p ++ ['}']) ++ "\";".toList⟩
      [(.curlyOpen, "\x7b"), (.var, v.asVariable), (.objectOperator, "->"), (.ident, p.text),
        (.rightBrace, "\x7d")] ⟨.quoted, [.code], none, b', "\";".toList⟩ := by
    intro b
    obtain ⟨b₁, hv⟩ := next_variable v ('-' :: '>' :: (p.chars ++ "\x7d\";".toList)) rfl
    obtain ⟨b₂, hp⟩ := next_property p "\x7d\";".toList rfl
    simp only [Name.dotted, List.cons_append, List.append_assoc, List.nil_append]
    exact ⟨_, .hand next_curlyOpen (by decide) (.hand hv (by decide) (.hand (next_arrow p _)
      (by decide) (.hand hp (by decide) (.hand next_rightBrace (by decide) (.refl _)))))⟩
  obtain ⟨us, hus, hparse⟩ := parse_quotedStatement hreads
  simp only [List.map_eq_cons_iff, List.map_eq_nil_iff] at hus
  obtain ⟨q, -, rfl, hq, t, -, rfl, ht, o, -, rfl, ho, i, -, rfl, hi, r, -, rfl, hr, rfl⟩ := hus
  obtain ⟨htk, htext⟩ := Prod.mk.inj ht
  obtain ⟨hik, hitext⟩ := Prod.mk.inj hi
  have hvar : Automaton.literals.Gives file .encapsVar [q, t, o, i, r] (.ok _) :=
    gives_bracedProperty (congrArg Prod.fst hq) htk (congrArg Prod.fst ho) hik
      (congrArg Prod.fst hr)
  refine ⟨some o.line, some t.line, ?_⟩
  rw [hparse file _ (gives_varPart gives_noPart hvar), propertyNode, ← htext, ← hitext]
  rfl

open Lexer.View in
/-- Without braces a property is read if its name starts with a letter. -/
theorem parse_simpleProperty (file : Option String) (v : Name) {p : Name}
    (hp : p.head.isAlpha = true) :
    ∃ i j, ((Filter.fresh []).parse file (quotedStatement (v.dotted p))).1 =
      .ok [propertyNode i j v p] := by
  have hreads : ∀ b, ∃ b', Reads ⟨.quoted, [.code], none, b, v.dotted p ++ "\";".toList⟩
      [(.var, v.asVariable), (.objectOperator, "->"), (.ident, p.text)]
      ⟨.quoted, [.code], none, b', "\";".toList⟩ := by
    intro b
    obtain ⟨b₁, hv⟩ := next_quotedVar v ('-' :: '>' :: (p.chars ++ "\";".toList)) rfl
    obtain ⟨b₂, hname⟩ := next_property p "\";".toList rfl
    simp only [Name.dotted, List.cons_append, List.append_assoc]
    exact ⟨_, .hand hv (by decide) (.hand (next_quotedArrow p _ hp) (by decide)
      (.hand hname (by decide) (.refl _)))⟩
  obtain ⟨us, hus, hparse⟩ := parse_quotedStatement hreads
  simp only [List.map_eq_cons_iff, List.map_eq_nil_iff] at hus
  obtain ⟨t, -, rfl, ht, o, -, rfl, ho, i, -, rfl, hi, rfl⟩ := hus
  obtain ⟨htk, htext⟩ := Prod.mk.inj ht
  obtain ⟨hik, hitext⟩ := Prod.mk.inj hi
  have hvar : Automaton.literals.Gives file .encapsVar [t, o, i] (.ok _) :=
    gives_simpleProperty htk (congrArg Prod.fst ho) hik
  refine ⟨some o.line, some t.line, ?_⟩
  rw [hparse file _ (gives_varPart gives_noPart hvar), propertyNode, ← htext, ← hitext]
  rfl

open Lexer.View in
/-- Before any other name the arrow and the name are literal text behind the variable. -/
theorem parse_literalArrow (file : Option String) (v : Name) {p : Name}
    (hp : p.head.isAlpha = false) :
    ∃ i j, ((Filter.fresh []).parse file (quotedStatement (v.dotted p))).1 =
      outcome ((unescape (String.ofList ('-' :: '>' :: p.chars))).map fun t =>
        [.node .binaryOp i [.text ".", .node .var j [.text v.asVariable], t]]) := by
  have hreads : ∀ b, ∃ b', Reads ⟨.quoted, [.code], none, b, v.dotted p ++ "\";".toList⟩
      [(.var, v.asVariable), (.encapsed, String.ofList ('-' :: '>' :: p.chars))]
      ⟨.quoted, [.code], none, b', "\";".toList⟩ := by
    intro b
    obtain ⟨b₁, hv⟩ := next_quotedVar v ('-' :: '>' :: (p.chars ++ "\";".toList)) rfl
    obtain ⟨b₂, htext⟩ := next_literalArrow p [';'] hp
    simp only [Name.dotted, List.cons_append, List.append_assoc]
    exact ⟨_, .hand hv (by decide) (.hand htext (by decide) (.refl _))⟩
  obtain ⟨us, hus, hparse⟩ := parse_quotedStatement hreads
  simp only [List.map_eq_cons_iff, List.map_eq_nil_iff] at hus
  obtain ⟨t, -, rfl, ht, e, -, rfl, he, rfl⟩ := hus
  obtain ⟨htk, htext⟩ := Prod.mk.inj ht
  obtain ⟨hek, hetext⟩ := Prod.mk.inj he
  have hvar : Automaton.literals.Gives file .encapsVar [t] (.ok _) := gives_simpleVar htk
  refine ⟨some e.line, some t.line, ?_⟩
  rw [hparse file _ (gives_textPart (gives_varPart gives_noPart hvar) hek), ← htext, ← hetext]
  cases unescape e.text <;> rfl

/-- Between braces a property is read under every name. Without braces the same tree is read
exactly if the name starts with a letter. -/
theorem property_spellings_agree_iff (file : Option String) (v p : Name) :
    ∃ t, ((Filter.fresh []).parse file (quotedStatement ('{' :: (v.dotted p ++ ['}'])))).1 =
        .ok [t] ∧ t.same (propertyNode none none v p) = true ∧
      ((∃ u, ((Filter.fresh []).parse file (quotedStatement (v.dotted p))).1 = .ok [u] ∧
        u.same t = true) ↔ p.head.isAlpha = true) := by
  have hsame : ∀ i j i' j', (propertyNode i j v p).same (propertyNode i' j' v p) = true := by
    simp [propertyNode, Tree.same, Tree.sameAll]
  obtain ⟨i, j, hbraced⟩ := parse_bracedProperty file v p
  refine ⟨_, hbraced, hsame i j none none, ?_, ?_⟩
  · rintro ⟨u, hu, hut⟩
    cases hp : p.head.isAlpha with
    | true => rfl
    | false =>
      obtain ⟨i', j', hsimple⟩ := parse_literalArrow file v hp
      rw [hsimple] at hu
      cases he : unescape (String.ofList ('-' :: '>' :: p.chars)) with
      | error =>
        rw [he] at hu
        cases hu
      | ok x =>
        rw [he] at hu
        cases hu
        simp [propertyNode, Tree.same] at hut
  · intro hp
    obtain ⟨i', j', hsimple⟩ := parse_simpleProperty file v hp
    exact ⟨_, hsimple, hsame i' j' i j⟩

/-- Under a name that starts with an underscore the two spellings are read into different trees. -/
theorem underscore_spellings_differ :
    ∃ t u, ((Filter.fresh []).parse none "<?php \"\x7b$v->_p\x7d\";".toList).1 = .ok [t] ∧
      ((Filter.fresh []).parse none "<?php \"$v->_p\";".toList).1 = .ok [u] ∧
      u.same t = false := by
  let v : Name := ⟨'v', [], rfl, by simp⟩
  let p : Name := ⟨'_', ['p'], rfl, List.all_eq_true.mp rfl⟩
  obtain ⟨i, j, hbraced⟩ := parse_bracedProperty none v p
  obtain ⟨i', j', hsimple⟩ := parse_literalArrow none v (p := p) rfl
  have hplain : unescape (String.ofList ('-' :: '>' :: p.chars)) = .ok (.text "->_p") :=
    unescape_plain (s := "->_p") (by simp)
  rw [hplain] at hsimple
  exact ⟨_, _, hbraced, hsimple, by simp [propertyNode, Tree.same]⟩

end Docblock
