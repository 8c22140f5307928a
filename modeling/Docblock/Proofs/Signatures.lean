import Docblock.Proofs.Prototype.Grammar
import Docblock.Proofs.Prototype.Source
import Docblock.Proofs.Script.Defaults
import Docblock.Proofs.Source

/-! The signatures of functions can be read again. -/
namespace Docblock

open Token Grammar

variable {f g : Filter} {file : Option String} {text : List Char} {t : Tree} {ts : List Tree}

/-- Every function in the trees of a source is read from tokens that stand side by side in it. -/
theorem readAs_function (h : f.parse file text = (.ok ts, g)) (ht : t ∈ Tree.nodesIn ts)
    (hk : t.isOf [.function] = true) :
    ∃ us, us <:+: (f.input text).stream.tokens ∧ ReadAs file .functionDeclaration us t := by
  obtain ⟨-, -, d, hd, hv⟩ := parse_ok h
  rw [← hd]
  exact d.exists_function hv ht hk

theorem toList_source (p : Prototype) :
    ("<?php function " ++ p.text ++ " \x7b\x7d").toList = p.source := by
  have hbefore : "<?php function ".toList = "<?php function".toList ++ [' '] := by decide
  have hbehind : " \x7b\x7d".toList = [' ', '\x7b', '\x7d'] := String.toList_ofList
  have htext : p.text.toList = p.chars := String.toList_ofList
  rw [String.toList_append, String.toList_append, hbefore, hbehind, htext, List.append_assoc,
    List.append_assoc, List.singleton_append]
  rfl

/-- Every function in the trees of a source has a name and parameters. If each of the default values
is a constant, an empty array or a positive integer, then a source with the signature and no body
is read into a function with that name and with equal parameters. -/
theorem signature_parses_back (h : f.parse file text = (.ok ts, g)) (ht : t ∈ Tree.nodesIn ts)
    (hk : t.isOf [.function] = true) :
    ∃ line name ps body ref, t = .node .function line [.text name, .list ps, body, ref] ∧
      ((∀ p ∈ ps, p.hasShownDefault = true) →
        ∃ s, Docs.signature t = .ok (.text s) ∧ ∀ file', ∃ line' ps',
          ((Filter.fresh []).parse file' ("<?php function " ++ s ++ " \x7b\x7d").toList).1 =
            .ok [.node .function line' [.text name, .list ps', .list [], .bool false]] ∧
          Tree.sameAll ps' ps = true) := by
  obtain ⟨us, hus, hread⟩ := readAs_function h ht hk
  have hchain := (f.input text).follows_stream
  have hfollows := List.IsChain.infix hchain hus
  obtain ⟨line, name, ps, body, ref, rfl, hwritten⟩ := prototype_of_readAs hread hfollows
  refine ⟨line, name, ps, body, ref, rfl, fun hshown => ?_⟩
  obtain ⟨p, rfl, hps⟩ := hwritten hshown
  refine ⟨p.text, Docs.signature_prototype hps, fun file' => ?_⟩
  obtain ⟨line', ps', hparse, hps'⟩ := Automaton.Fragment.parse_source file' p
  rw [toList_source]
  exact ⟨line', ps', hparse, sameAll_parameters hps' hps⟩

/-- A function in a method, with all the kinds of types and of default values. -/
theorem signature_parses_back_nested :
    ∃ ts g, (Filter.fresh []).parse none ("<?php class A \x7b function m() \x7b " ++
        "function &f(\\B\\C &$a, Array $b = ARRAY( ), Static $c = 0x1F, &$d = namespace\\K) " ++
        "\x7b return $a; \x7d \x7d \x7d").toList = (.ok ts, g) ∧
      ∃ t ∈ Tree.nodesIn ts, ∃ line name ps body ref,
        t = .node .function line [.text name, .list ps, body, ref] ∧ ps.length = 4 ∧
        (∀ p ∈ ps, p.hasShownDefault = true) ∧
        ∃ s, Docs.signature t = .ok (.text s) ∧ ∀ file', ∃ line' ps',
          ((Filter.fresh []).parse file' ("<?php function " ++ s ++ " \x7b\x7d").toList).1 =
            .ok [.node .function line' [.text name, .list ps', .list [], .bool false]] ∧
          Tree.sameAll ps' ps = true := by
  obtain ⟨ts, g, h, hany⟩ := exists_parse_any (Filter.fresh []) none
    ("<?php class A \x7b function m() \x7b " ++
      "function &f(\\B\\C &$a, Array $b = ARRAY( ), Static $c = 0x1F, &$d = namespace\\K) " ++
      "\x7b return $a; \x7d \x7d \x7d").toList
    (p := fun ts => (Tree.nodesIn ts).any fun t => t.isOf [.function] &&
      t.parameters.length == 4 && t.parameters.all Tree.hasShownDefault)
    (by
      rw [String.toList_append, String.toList_append,
        String.toList_ofList, String.toList_ofList, String.toList_ofList]
      decide +kernel)
  obtain ⟨t, ht, hcheck⟩ := List.any_eq_true.mp hany
  simp only [Bool.and_eq_true, beq_iff_eq, List.all_eq_true] at hcheck
  obtain ⟨⟨hk, hlength⟩, hshown⟩ := hcheck
  obtain ⟨line, name, ps, body, ref, rfl, hback⟩ := signature_parses_back h ht hk
  exact ⟨ts, g, h, _, ht, line, name, ps, body, ref, rfl, hlength, hshown, hback hshown⟩

end Docblock
