import Docblock.Proofs.Docs.Files
import Docblock.Proofs.Grammar.Making
import Docblock.Proofs.Source

/-! The worlds that commands lead to: every source gives shaped trees, and so do the kept ones. -/
namespace Docblock.Docs

open Grammar

variable {w : World} {path : String}

/-- The trees of a source are shaped. -/
theorem parse_shaped {f g : Filter} {file : Option String} {text : List Char} {ts : List Tree}
    (h : f.parse file text = (.ok ts, g)) :
    ∀ t ∈ ts, t.shaped = true := by
  obtain ⟨-, -, d, -, hd⟩ := parse_ok h
  exact fun t ht => (d.made hd t ht).shaped

/-- Whether a command writes only below the folder of sources. -/
def Command.InSources : Command → Prop
  | .write path _ _ => ".." ∉ Files.splitPath [] path.toList
  | _ => True

/-- The worlds that commands lead to. -/
inductive Reached : World → Prop
  | initial : Reached .initial
  | step {w : World} {c : Command} (h : Reached w) (hc : c.InSources) : Reached (w.step c).2

namespace World

/-- What comes of reading a source: its trees are kept with its time, or it cannot be opened, or
its text is read, and the trees are kept if there are any. -/
inductive Parses (w : World) (path : String) : Except Failure (List Tree) × World → Prop
  | kept {ts : List Tree} (ht : w.files.sameTime path (keptPath path) = true)
      (hk : w.kept (keptPath path) = .ok ts) (hts : ∀ t ∈ ts, t.shaped = true) :
      Parses w path (.ok ts, w)
  | unopened {e : Failure} (ht : w.files.sameTime path (keptPath path) = false)
      (hs : w.source path = .error e) : Parses w path (.error e, w)
  | unread {file : File} {text : List Char} {e : ParseError} {g : Filter}
      (ht : w.files.sameTime path (keptPath path) = false)
      (hs : w.source path = .ok (file, text))
      (hp : (Filter.fresh w.stack).parse none text = (.error e, g)) :
      Parses w path (.error (.parse e), { w with stack := g.lexer.stack })
  | read {file : File} {text : List Char} {ts : List Tree} {g : Filter} {files : Files}
      (ht : w.files.sameTime path (keptPath path) = false)
      (hs : w.source path = .ok (file, text))
      (hp : (Filter.fresh w.stack).parse none text = (.ok ts, g))
      (hw : w.files.write (keptPath path) ⟨file.time, .trees ts⟩ = .ok files)
      (htidy : files.Tidy) : Parses w path (.ok ts, ⟨files, g.lexer.stack⟩)

theorem parse_parses (h : w.files.Tidy) (path : String) : w.Parses path (w.parse path) := by
  unfold World.parse
  split
  · rename_i ht
    obtain ⟨-, ts, -, -, hk, hts⟩ := kept_ok h ht
    rw [hk]
    exact .kept ht hk hts
  · rename_i ht
    have ht' := Bool.eq_false_iff.mpr ht
    cases hs : w.source path with
    | error e => exact .unopened ht' hs
    | ok result =>
      obtain ⟨file, text⟩ := result
      cases hp : (Filter.fresh w.stack).parse none text with
      | mk parsed g =>
        simp only [hp]
        cases parsed with
        | error e => exact .unread ht' hs hp
        | ok ts =>
          obtain ⟨files, hw, htidy⟩ :=
            Files.exists_write_keptPath h path file.time (parse_shaped hp)
          simp only [hw]
          exact .read ht' hs hp hw htidy

theorem parse_tidy (h : w.files.Tidy) (path : String) : (w.parse path).2.files.Tidy := by
  have hparses := parse_parses h path
  generalize w.parse path = res at hparses ⊢
  cases hparses with
  | kept | unopened | unread => exact h
  | read ht hs hp hw htidy => exact htidy

theorem document_tidy (h : w.files.Tidy) (r : Request) (targets : List String)
    (filename : String) : (w.document r targets filename).2.files.Tidy := by
  simp only [World.document]
  split
  · exact h
  · have htidy := parse_tidy h (String.ofList (Text.join "src".toList filename.toList))
    generalize World.parse w _ = res at htidy ⊢
    split
    · split <;> exact htidy
    · exact htidy
    · split <;> exact htidy

theorem run_tidy (h : w.files.Tidy) (r : Request) : (w.run r).2.files.Tidy := by
  simp only [World.run]
  split
  · exact h
  · exact h
  · exact document_tidy h r _ _

theorem change_tidy {x : Except FileError Files} (h : w.files.Tidy)
    (hx : ∀ files, x = .ok files → files.Tidy) : (w.change x).2.files.Tidy := by
  cases x with
  | error e => exact h
  | ok files => exact hx files rfl

theorem step_tidy {c : Command} (h : w.files.Tidy) (hc : c.InSources) :
    (w.step c).2.files.Tidy := by
  cases c with
  | write path bytes time => exact change_tidy h fun _ hw => Files.tidy_write_source h hc hw
  | touch path time => exact change_tidy h fun _ ht => Files.tidy_touch h ht
  | remove path => exact change_tidy h fun _ hr => Files.tidy_remove h hr
  | cache => exact h
  | dropCache name => exact change_tidy h fun _ hr => Files.tidy_remove h hr
  | sameTime a b => exact h
  | run r => exact run_tidy h r

end World

theorem Reached.tidy (h : Reached w) : w.files.Tidy := by
  induction h with
  | initial => exact Files.tidy_initial
  | step _ hc ih => exact World.step_tidy ih hc

end Docblock.Docs
