import Docblock.Proofs.Docs.Session
import Docblock.Proofs.History

/-! The text that the trees given for a source belong to, whether they are kept ones or not. -/
namespace Docblock.Docs

open Docblock.Filter

/-- A file holds a text that is read into some trees when it is read by itself. -/
def File.Reads (file : File) (ts : List Tree) : Prop :=
  ∃ text, file.text = .ok text ∧ ((fresh []).parse none text).1 = .ok ts

/-- A file for which the trees were asked, and the name under which they are kept. -/
structure Sighting where
  name : String
  file : File

/-- Whether a file that takes the place of another one has another time, or the same bytes. -/
def File.renews (new old : File) : Bool :=
  match old.content, new.content with
  | .bytes bs, .bytes bs' => bs == bs' || old.time != new.time
  | _, _ => true

/-- Files are changed in any way, but for the kept trees, which may only be removed. What is
changed has another time. -/
structure Files.Edited (f f' : Files) : Prop where
  tidy : f'.Tidy
  kept : ∀ e ∈ f'.files, e.1.head? = some "cache" → e ∈ f.files
  renewed : ∀ e ∈ f'.files, ∀ old ∈ f.files, e.1 = old.1 → e.2.renews old.2 = true

/-- The worlds that edits and requests for the trees of sources lead to, with the files that the
requests found. -/
inductive Recorded : World → List Sighting → Prop
  | initial : Recorded .initial []
  | edit {w : World} {log : List Sighting} {files : Files} (h : Recorded w log)
      (he : w.files.Edited files) : Recorded { w with files := files } log
  | ask {w : World} {log : List Sighting} (h : Recorded w log) (path : String) :
      Recorded (w.parse path).2 (log ++ (w.found? path).toList.map (⟨keptName path, ·⟩))

variable {w : World} {path : String} {ts : List Tree} {file : File} {log log' : List Sighting}
  {files : Files}

/-- Trees that were read from a file, under its name and with its time. -/
def Sighting.Gave (seen : Sighting) (name : String) (time : Int) (ts : List Tree) : Prop :=
  seen.name = name ∧ seen.file.time = time ∧ seen.file.Reads ts

/-- All kept trees were read from files that requests found. -/
structure Accounted (w : World) (log : List Sighting) : Prop where
  tidy : w.files.Tidy
  kept : ∀ name file, (["cache", name], file) ∈ w.files.files →
    ∃ ts, file.content = .trees ts ∧ ∃ seen ∈ log, seen.Gave name file.time ts

theorem World.found?_of_source {text : List Char} (h : w.source path = .ok (file, text)) :
    w.found? path = some file ∧ file.text = .ok text := by
  obtain ⟨p, hp, h⟩ := ok_of_bind h
  cases hfind : w.files.find path with
  | error e =>
    rw [hfind] at hp
    cases hp
  | ok q =>
    rw [hfind] at hp
    cases hp
    rw [found?, hfind]
    split at h
    · cases h
    · rename_i hfile
      obtain ⟨text', htext, h⟩ := ok_of_bind h
      cases h
      exact ⟨hfile, htext⟩

/-- What is read from a source is what it is read into by itself. -/
theorem File.reads_of_parse {text : List Char} {stack : List Token.Mode} {g : Filter}
    (ht : file.text = .ok text) (hp : (fresh stack).parse none text = (.ok ts, g)) :
    file.Reads ts :=
  ⟨text, ht, parse_ok_alone hp⟩

theorem Accounted.weaken (h : Accounted w log) (hl : ∀ seen ∈ log, seen ∈ log') :
    Accounted w log' where
  tidy := h.tidy
  kept name file hm := by
    obtain ⟨ts, hts, seen, hseen, hgave⟩ := h.kept name file hm
    exact ⟨ts, hts, seen, hl seen hseen, hgave⟩

theorem accounted_edit (h : Accounted w log) (he : w.files.Edited files) :
    Accounted { w with files := files } log where
  tidy := he.tidy
  kept name file hm := h.kept name file (he.kept _ hm rfl)

theorem accounted_ask (h : Accounted w log) (path : String) :
    Accounted (w.parse path).2 (log ++ (w.found? path).toList.map (⟨keptName path, ·⟩)) := by
  have hmore := h.weaken fun seen (hm : seen ∈ log) =>
    List.mem_append_left ((w.found? path).toList.map (⟨keptName path, ·⟩)) hm
  have hparses := World.parse_parses h.tidy path
  generalize w.parse path = res at hparses ⊢
  cases hparses with
  | kept | unopened | unread => exact ⟨hmore.tidy, hmore.kept⟩
  | @read file text ts g files ht hs hp hw htidy =>
    refine ⟨htidy, fun name kept hm => ?_⟩
    rw [Files.write_keptPath h.tidy] at hw
    obtain ⟨names, hnames, -, hfiles⟩ := Files.put_ok hw
    cases hnames
    rcases hfiles _ hm with hm | he
    · exact hmore.kept name kept hm
    · obtain ⟨hname, rfl⟩ := Prod.mk.inj he
      obtain rfl : name = keptName path := by simpa using hname
      obtain ⟨hfound, htext⟩ := World.found?_of_source hs
      refine ⟨ts, rfl, ⟨keptName path, file⟩, ?_, rfl, rfl, File.reads_of_parse htext hp⟩
      simp [hfound]

theorem Recorded.accounted (h : Recorded w log) : Accounted w log := by
  induction h with
  | initial => exact ⟨Files.tidy_initial, fun name file hm => nomatch hm⟩
  | edit _ he ih => exact accounted_edit ih he
  | ask _ path ih => exact accounted_ask ih path

/-- The trees given for a source belong to a text that was found under its name and with its time,
by this request or by one before it. They are those of the source itself if all requests that found
a file under this name and with this time found the same content. -/
theorem parse_current (h : Recorded w log) (hp : (w.parse path).1 = .ok ts) :
    ∃ file, w.found? path = some file ∧
      (∃ seen ∈ log ++ [⟨keptName path, file⟩], seen.Gave (keptName path) file.time ts) ∧
      ((∀ seen ∈ log, seen.name = keptName path → seen.file.time = file.time →
        seen.file.content = file.content) → file.Reads ts) := by
  have hacc := h.accounted
  have hparses := World.parse_parses hacc.tidy path
  generalize w.parse path = res at hparses hp
  cases hparses with
  | unopened | unread => cases hp
  | @kept ts' ht hk =>
    cases hp
    obtain ⟨file, ts', hfound, hm, hk', -⟩ := World.kept_ok hacc.tidy ht
    cases hk.symm.trans hk'
    obtain ⟨us, hus, seen, hseen, hname, htime, hreads⟩ := hacc.kept _ _ hm
    cases hus
    refine ⟨file, hfound, ⟨seen, List.mem_append_left _ hseen, hname, htime, hreads⟩, ?_⟩
    intro hsame
    obtain ⟨text, htext, hparse⟩ := hreads
    refine ⟨text, ?_, hparse⟩
    rwa [File.text, ← hsame seen hseen hname htime]
  | @read file text ts' g files ht hs hparse hw htidy =>
    cases hp
    obtain ⟨hfound, htext⟩ := World.found?_of_source hs
    have hreads := File.reads_of_parse htext hparse
    exact ⟨file, hfound, ⟨⟨keptName path, file⟩, by simp, rfl, rfl, hreads⟩, fun _ => hreads⟩

/-- A write below the folder of sources is an edit, if what it puts there has another time than
what it replaces. -/
theorem Recorded.write {bytes : List UInt8} {time : Int} (h : Recorded w log)
    (hup : ".." ∉ Files.splitPath [] path.toList)
    (hr : ∀ e ∈ (w.step (.write path bytes time)).2.files.files, ∀ old ∈ w.files.files,
      e.1 = old.1 → e.2.renews old.2 = true) :
    Recorded (w.step (.write path bytes time)).2 log := by
  cases hw : w.files.write (World.sourcePath path) ⟨time, .bytes bytes⟩ with
  | error e =>
    simp only [World.step, hw, World.change]
    exact h
  | ok files =>
    simp only [World.step, hw, World.change] at hr ⊢
    have htidy := h.accounted.tidy
    obtain ⟨-, -, hfiles⟩ := Files.write_source htidy hup hw
    refine .edit h ⟨Files.tidy_write_source htidy hup hw, fun e he hc => ?_, hr⟩
    exact (hfiles e he).resolve_right (Files.not_below_cache hc)

/-- The time of a file, and its bytes if it has any. -/
def File.stamp (file : File) : Int × Option (List UInt8) :=
  (file.time, match file.content with
    | .bytes bs => some bs
    | .trees _ => none)

theorem World.found?_of_stamp {time : Int} {bytes : List UInt8}
    (h : (w.found? path).map File.stamp = some (time, some bytes)) :
    w.found? path = some ⟨time, .bytes bytes⟩ := by
  obtain ⟨⟨time', content⟩, hfile, hstamp⟩ := Option.map_eq_some_iff.mp h
  cases content with
  | bytes bs =>
    cases hstamp
    exact hfile
  | trees ts => cases hstamp

/-- A source with one documented function. -/
def oneFunction (name : String) : List UInt8 :=
  ("<?php /** Documented. */ function " ++ name ++ "() \x7b \x7d").toUTF8.toList

/-- A world in which the trees of a source were asked for. -/
def asked (path : String) : World :=
  ((World.initial.step (.write path (oneFunction "f") 1000)).2.parse (World.sourcePath path)).2

theorem recorded_asked {name : String} (hup : ".." ∉ Files.splitPath [] path.toList)
    (hn : keptName (World.sourcePath path) = name)
    (hf : ((World.initial.step (.write path (oneFunction "f") 1000)).2.found?
      (World.sourcePath path)).map File.stamp = some (1000, some (oneFunction "f"))) :
    Recorded (asked path) [⟨name, ⟨1000, .bytes (oneFunction "f")⟩⟩] := by
  have hw : Recorded (World.initial.step (.write path (oneFunction "f") 1000)).2 [] :=
    Recorded.initial.write hup (by simp [World.initial, Files.initial])
  have ha := hw.ask (World.sourcePath path)
  rw [World.found?_of_stamp hf, hn] at ha
  exact ha

/-- A world in which a source was changed after its trees were asked for. -/
def changedSource : World := ((asked "x.php").step (.write "x.php" (oneFunction "g") 2000)).2

/-- A world in which the trees were asked for again after the change. -/
def askedAgain : World := (changedSource.parse "src/x.php").2

theorem changedSource_facts :
    (∀ e ∈ changedSource.files.files, ∀ old ∈ (asked "x.php").files.files,
      e.1 = old.1 → e.2.renews old.2 = true) ∧
    (changedSource.found? "src/x.php").map File.stamp = some (2000, some (oneFunction "g")) ∧
    (askedAgain.found? "src/x.php").map File.stamp = some (2000, some (oneFunction "g")) ∧
    askedAgain.files.sameTime "src/x.php" (keptPath "src/x.php") = true := by
  decide +kernel

theorem recorded_askedAgain : Recorded askedAgain
    [⟨"x.parse", ⟨1000, .bytes (oneFunction "f")⟩⟩,
      ⟨"x.parse", ⟨2000, .bytes (oneFunction "g")⟩⟩] := by
  obtain ⟨hrenews, hfound, -⟩ := changedSource_facts
  have hasked : Recorded (asked "x.php") [⟨"x.parse", ⟨1000, .bytes (oneFunction "f")⟩⟩] :=
    recorded_asked (by simp [Files.splitPath]) (by decide +kernel) (by decide +kernel)
  have hchanged : Recorded changedSource [⟨"x.parse", ⟨1000, .bytes (oneFunction "f")⟩⟩] :=
    hasked.write (by simp [Files.splitPath]) hrenews
  have hagain := hchanged.ask "src/x.php"
  rw [World.found?_of_stamp hfound, show keptName "src/x.php" = "x.parse" by decide +kernel]
    at hagain
  exact hagain

theorem parse_current_kept : askedAgain.files.sameTime "src/x.php" (keptPath "src/x.php") = true ∧
    ∃ log ts, Recorded askedAgain log ∧ (askedAgain.parse "src/x.php").1 = .ok ts ∧
      (∀ seen ∈ log, seen.name = keptName "src/x.php" → seen.file.time = 2000 →
        seen.file.content = .bytes (oneFunction "g")) ∧
      askedAgain.found? "src/x.php" = some ⟨2000, .bytes (oneFunction "g")⟩ ∧
      File.Reads ⟨2000, .bytes (oneFunction "g")⟩ ts := by
  obtain ⟨-, -, hstamp, htime⟩ := changedSource_facts
  have hfile := World.found?_of_stamp hstamp
  obtain ⟨-, ts, -, -, hk, -⟩ := World.kept_ok recorded_askedAgain.accounted.tidy htime
  have hp : (askedAgain.parse "src/x.php").1 = .ok ts := by rw [World.parse, if_pos htime, hk]
  obtain ⟨file, hfound, -, hcurrent⟩ := parse_current recorded_askedAgain hp
  obtain rfl := Option.some.inj (hfile.symm.trans hfound)
  have hsame : ∀ seen ∈ [Sighting.mk "x.parse" ⟨1000, .bytes (oneFunction "f")⟩,
      ⟨"x.parse", ⟨2000, .bytes (oneFunction "g")⟩⟩], seen.name = keptName "src/x.php" →
        seen.file.time = 2000 → seen.file.content = .bytes (oneFunction "g") := by
    simp
  exact ⟨htime, _, ts, recorded_askedAgain, hp, hsame, hfile, hcurrent hsame⟩

/-- A world with a second source of the same name and time as one whose trees are kept. -/
def sharedName : World := ((asked "a/x.php").step (.write "b/x.php" (oneFunction "g") 1000)).2

/-- The names of the entries for trees. -/
def entryNames (ts : List Tree) : Option (List String) :=
  (moduleEntries ⟨true, true⟩ ts).toOption.map (List.map Entry.name)

theorem sharedName_facts :
    (∀ e ∈ sharedName.files.files, ∀ old ∈ (asked "a/x.php").files.files,
      e.1 = old.1 → e.2.renews old.2 = true) ∧
    (sharedName.found? "src/b/x.php").map File.stamp = some (1000, some (oneFunction "g")) ∧
    (sharedName.parse "src/b/x.php").1.toOption.bind entryNames = some ["f()"] ∧
    (File.text ⟨1000, .bytes (oneFunction "g")⟩).toOption.bind
      (fun text => ((fresh []).parse none text).1.toOption.bind entryNames) = some ["g()"] := by
  decide +kernel

theorem recorded_sharedName :
    Recorded sharedName [⟨"x.parse", ⟨1000, .bytes (oneFunction "f")⟩⟩] := by
  have hasked : Recorded (asked "a/x.php") [⟨"x.parse", ⟨1000, .bytes (oneFunction "f")⟩⟩] :=
    recorded_asked (by simp [Files.splitPath]) (by decide +kernel) (by decide +kernel)
  exact hasked.write (by simp [Files.splitPath]) sharedName_facts.1

/-- Where another source of its name and time was asked for before, the trees given for a source
can be those of the other. -/
theorem parse_not_current : ¬ ∀ w log path ts, Recorded w log → (w.parse path).1 = .ok ts →
    ∃ file, w.found? path = some file ∧ file.Reads ts := by
  intro h
  obtain ⟨-, hstamp, hkept, hown⟩ := sharedName_facts
  obtain ⟨ts, hts, hf⟩ := Option.bind_eq_some_iff.mp hkept
  obtain ⟨file, hfound, text, htext, hread⟩ :=
    h _ _ "src/b/x.php" ts recorded_sharedName (ok_of_toOption hts)
  obtain rfl := Option.some.inj ((World.found?_of_stamp hstamp).symm.trans hfound)
  simp [htext, hread, Except.toOption, hf] at hown

end Docblock.Docs
