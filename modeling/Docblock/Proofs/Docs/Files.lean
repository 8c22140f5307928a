import Docblock.Proofs.Result
import Docblock.Proofs.Tree.Shape
import Docblock.Docs.Session

/-! The folder of kept trees, which holds nothing but trees whatever becomes of the sources. -/
namespace Docblock.Docs

namespace Files

theorem splitPath_append {cs : List Char} (part rest : List Char) (h : '/' ∉ cs) :
    splitPath part (cs ++ rest) = splitPath (cs.reverse ++ part) rest := by
  induction cs generalizing part with
  | nil => rfl
  | cons c cs ih =>
    obtain ⟨hc, hcs⟩ := List.ne_and_not_mem_of_not_mem_cons h
    rw [List.cons_append, splitPath, if_neg (Ne.symm hc), ih (c :: part) hcs]
    simp

theorem splitPath_slash (part cs : List Char) :
    splitPath part ('/' :: cs) = String.ofList part.reverse :: splitPath [] cs := by
  rw [splitPath, if_pos rfl]

theorem splitPath_ne_nil (part cs : List Char) : splitPath part cs ≠ [] := by
  fun_induction splitPath part cs <;> simp_all

end Files

theorem not_mem_lastPart (cs : List Char) : '/' ∉ Text.lastPart cs := by
  intro h
  have hne := List.all_eq_true.mp List.all_takeWhile '/' (List.mem_reverse.mp h)
  simp at hne

theorem mem_of_mem_withoutExtension {c : Char} {cs : List Char}
    (h : c ∈ Text.withoutExtension cs) : c ∈ cs := by
  simp only [Text.withoutExtension] at h
  split at h
  · exact h
  · rename_i d before hdrop
    split at h
    · exact h
    · have hmem : c ∈ d :: before := List.mem_cons_of_mem d (List.mem_reverse.mp h)
      rw [← hdrop] at hmem
      exact List.mem_reverse.mp (List.mem_of_mem_drop hmem)

/-- The name of the file that keeps the trees of a source. -/
def keptName (path : String) : String := baseName path (some "parse")

theorem keptName_toList (path : String) :
    (keptName path).toList =
      Text.withoutExtension (Text.lastPart path.toList) ++ ".parse".toList := by
  have hext : ("parse" : String).isEmpty = false := rfl
  simp [keptName, baseName, hext]

theorem keptName_ne (path s : String) (h : s.toList.length < 6) : keptName path ≠ s := by
  rintro rfl
  rw [keptName_toList, List.length_append, show ".parse".toList.length = 6 from rfl] at h
  omega

theorem splitPath_keptPath (path : String) :
    Files.splitPath [] (keptPath path).toList = ["cache", keptName path] := by
  have hname : '/' ∉ (keptName path).toList := by
    rw [keptName_toList]
    intro h
    rcases List.mem_append.mp h with h | h
    · exact not_mem_lastPart _ (mem_of_mem_withoutExtension h)
    · simp at h
  have hpath : (keptPath path).toList =
      "cache".toList ++ '/' :: ((keptName path).toList ++ []) := by
    simp [keptPath, keptName]
  rw [hpath, Files.splitPath_append [] _ (by simp), Files.splitPath_slash,
    Files.splitPath_append [] [] hname]
  simp [Files.splitPath]

/-- The entry of a file in the folder of kept trees. -/
def Kept (e : Names × File) : Prop :=
  ∃ name ts, e.1 = ["cache", name] ∧ e.2.content = .trees ts ∧ ∀ t ∈ ts, t.shaped = true

/-- The folders for sources and for kept trees are there; the one for kept trees has no folders in
it, and all its files hold trees. -/
structure Files.Tidy (f : Files) : Prop where
  root : [] ∈ f.folders
  sources : ["src"] ∈ f.folders
  cache : ["cache"] ∈ f.folders
  folders : ∀ names ∈ f.folders, names.head? = some "cache" → names = ["cache"]
  files : ∀ e ∈ f.files, e.1.head? = some "cache" → Kept e

namespace Files

variable {f f' : Files} {p q : Place} {names : Names} {file : File} {parts : List String}
  {path : String}

theorem tidy_initial : initial.Tidy where
  root := by simp [initial]
  sources := by simp [initial]
  cache := by simp [initial]
  folders := by simp [initial]
  files := by simp [initial]

/-- What changes outside of the folder of kept trees, or keeps trees there, leaves it tidy. -/
theorem Tidy.change (h : f.Tidy) (hall : ∀ names ∈ f.folders, names ∈ f'.folders)
    (hfolders : ∀ names ∈ f'.folders, names ∈ f.folders ∨ names.head? ≠ some "cache")
    (hfiles : ∀ e ∈ f'.files, e ∈ f.files ∨ (e.1.head? = some "cache" → Kept e)) : f'.Tidy where
  root := hall [] h.root
  sources := hall ["src"] h.sources
  cache := hall ["cache"] h.cache
  folders names hm hc := by
    rcases hfolders names hm with hm | hne
    · exact h.folders names hm hc
    · exact absurd hc hne
  files e hm hc := by
    rcases hfiles e hm with hm | hk
    · exact h.files e hm hc
    · exact hk hc

theorem put_ok (h : f.put p file = .ok f') :
    ∃ names, p = .inside names ∧ f'.folders = f.folders ∧
      ∀ e ∈ f'.files, e ∈ f.files ∨ e = (names, file) := by
  simp only [put] at h
  split at h
  · cases h
  · split at h
    · cases h
    · rename_i names _
      cases h
      refine ⟨names, rfl, rfl, fun e he => ?_⟩
      rcases List.mem_cons.mp he with rfl | he
      · exact Or.inr rfl
      · exact Or.inl (List.mem_filter.mp he).1

theorem tidy_put (h : f.Tidy) (hp : f.put p file = .ok f')
    (hk : ∀ names, p = .inside names → names.head? = some "cache" → Kept (names, file)) :
    f'.Tidy := by
  obtain ⟨names, rfl, hfolders, hfiles⟩ := put_ok hp
  refine h.change (hfolders ▸ fun _ hm => hm) (hfolders ▸ fun _ hm => Or.inl hm) fun e he => ?_
  rcases hfiles e he with he | rfl
  · exact Or.inl he
  · exact Or.inr (hk names rfl)

theorem find_ok (h : f.find path = .ok p) : f.resolve path = .ok p ∧ f.isThere p = true := by
  obtain ⟨q, hq, hthere⟩ := ok_of_bind h
  split at hthere
  · cases hthere
    exact ⟨hq, ‹_›⟩
  · cases hthere

theorem mem_of_file? (h : f.file? p = some file) : ∃ names, p = .inside names ∧
    (names, file) ∈ f.files := by
  cases p with
  | outside => cases h
  | inside names =>
    obtain ⟨l, l', heq, -⟩ := List.lookup_eq_some_iff.mp h
    exact ⟨names, rfl, by simp [heq]⟩

theorem tidy_touch {time : Int} (h : f.Tidy) (ht : f.touch path time = .ok f') : f'.Tidy := by
  obtain ⟨p, -, ht⟩ := ok_of_bind ht
  split at ht
  · rename_i file hfile
    refine tidy_put h ht fun names hp hc => ?_
    obtain ⟨names', rfl, hm⟩ := mem_of_file? hfile
    cases hp
    obtain ⟨name, ts, hname, hts, hs⟩ := h.files _ hm hc
    exact ⟨name, ts, hname, hts, hs⟩
  · cases ht
    exact h

theorem tidy_remove (h : f.Tidy) (hr : f.remove path = .ok f') : f'.Tidy := by
  obtain ⟨p, -, hr⟩ := ok_of_bind hr
  split at hr
  · cases hr
  · split at hr
    · cases hr
    · cases hr
      exact h.change (fun _ hm => hm) (fun _ hm => Or.inl hm)
        fun e he => Or.inl (List.mem_filter.mp he).1

/-- A place below the folder of sources. -/
def Below (p : Place) : Prop := ∃ names, p = .inside ("src" :: names)

theorem child_below (name : String) (h : Below p) :
    ∃ q, child p name = some q ∧ Below q := by
  obtain ⟨names, rfl⟩ := h
  exact ⟨_, rfl, names ++ [name], rfl⟩

theorem walk_below (h : Below p) (hup : ".." ∉ parts) (hw : f.walk p parts = .ok q) : Below q := by
  induction parts generalizing p with
  | nil =>
    cases hw
    exact h
  | cons part parts ih =>
    obtain ⟨hne, hup⟩ := List.ne_and_not_mem_of_not_mem_cons hup
    rw [walk, if_neg (Ne.symm hne)] at hw
    split at hw
    · cases hw
    · split at hw
      · exact ih h hup hw
      · obtain ⟨q', hq, hb⟩ := child_below part h
        rw [hq] at hw
        exact ih hb hup hw

theorem makeFolders_below (h : Below p) (hup : ".." ∉ parts)
    (hm : f.makeFolders p parts = .ok (q, f')) :
    Below q ∧ (∀ names ∈ f.folders, names ∈ f'.folders) ∧
      (∀ names ∈ f'.folders, names ∈ f.folders ∨ Below (.inside names)) ∧ f'.files = f.files := by
  induction parts generalizing p f with
  | nil =>
    cases hm
    exact ⟨h, fun _ hn => hn, fun _ hn => Or.inl hn, rfl⟩
  | cons part parts ih =>
    obtain ⟨hne, hup⟩ := List.ne_and_not_mem_of_not_mem_cons hup
    rw [makeFolders, if_neg (Ne.symm hne)] at hm
    split at hm
    · exact ih h hup hm
    · obtain ⟨q', hq, hb⟩ := child_below part h
      rw [hq] at hm
      simp only at hm
      split at hm
      · cases hm
      · split at hm
        · exact ih hb hup hm
        · obtain ⟨names, rfl⟩ := hb
          obtain ⟨hb, hall, hnew, hfiles⟩ := ih ⟨names, rfl⟩ hup hm
          refine ⟨hb, fun n hn => hall n (List.mem_cons_of_mem _ hn), fun n hn => ?_, hfiles⟩
          rcases hnew n hn with hn | hn
          · rcases List.mem_cons.mp hn with rfl | hn
            · exact Or.inr ⟨names, rfl⟩
            · exact Or.inl hn
          · exact Or.inr hn

theorem Tidy.file?_folder (h : f.Tidy) : f.file? (.inside ["cache"]) = none := by
  cases hf : f.file? (.inside ["cache"]) with
  | none => rfl
  | some file =>
    obtain ⟨names, hp, hm⟩ := mem_of_file? hf
    cases hp
    obtain ⟨name, ts, hname, -⟩ := h.files _ hm rfl
    cases hname

theorem splitPath_sourcePath (path : String) :
    splitPath [] (World.sourcePath path).toList = "src" :: splitPath [] path.toList := by
  have hpath : (World.sourcePath path).toList = "src".toList ++ '/' :: path.toList := by
    simp [World.sourcePath]
  rw [hpath, splitPath_append [] _ (by simp), splitPath_slash]
  simp

/-- A write below the folder of sources makes folders and one file, all of them there. -/
theorem write_source (h : f.Tidy) (hup : ".." ∉ splitPath [] path.toList)
    (hw : f.write (World.sourcePath path) file = .ok f') :
    (∀ names ∈ f.folders, names ∈ f'.folders) ∧
      (∀ names ∈ f'.folders, names ∈ f.folders ∨ Below (.inside names)) ∧
      ∀ e ∈ f'.files, e ∈ f.files ∨ Below (.inside e.1) := by
  have hstart : start (World.sourcePath path) = .inside [] := by
    simp [start, World.sourcePath]
  obtain ⟨⟨folder, g⟩, hm, hw⟩ := ok_of_bind hw
  obtain ⟨place, hp, hput⟩ := ok_of_bind hw
  rw [splitPath_sourcePath] at hm hp
  rw [hstart, List.dropLast_cons_of_ne_nil (splitPath_ne_nil _ _)] at hm
  have hsrc : f.isFolder (.inside ["src"]) = true := by simpa [isFolder] using h.sources
  simp only [makeFolders, child, List.nil_append, hsrc, if_true, String.reduceEq, or_self,
    if_false] at hm
  have hinit : ".." ∉ (splitPath [] path.toList).dropLast :=
    fun hmem => hup (List.dropLast_subset _ hmem)
  have hlast : ".." ∉ ("src" :: splitPath [] path.toList).drop (splitPath [] path.toList).length :=
    fun hmem => by
      rcases List.mem_cons.mp (List.mem_of_mem_drop hmem) with he | hmem
      · simp at he
      · exact hup hmem
  split at hm
  · cases hm
  · obtain ⟨hb, hall, hnew, hfiles⟩ := makeFolders_below ⟨[], rfl⟩ hinit hm
    have hplace := walk_below hb hlast hp
    obtain ⟨names, rfl, hfolders, hput⟩ := put_ok hput
    refine ⟨hfolders ▸ hall, hfolders ▸ hnew, fun e he => ?_⟩
    rcases hput e he with he | rfl
    · exact Or.inl (hfiles ▸ he)
    · exact Or.inr hplace

theorem not_below_cache (h : names.head? = some "cache") : ¬ Below (.inside names) := by
  rintro ⟨rest, hrest⟩
  cases hrest
  simp at h

/-- A write below the folder of sources leaves the kept trees alone. -/
theorem tidy_write_source (h : f.Tidy) (hup : ".." ∉ splitPath [] path.toList)
    (hw : f.write (World.sourcePath path) file = .ok f') : f'.Tidy := by
  obtain ⟨hall, hfolders, hfiles⟩ := write_source h hup hw
  refine h.change hall (fun names hn => ?_) fun e he => ?_
  · exact (hfolders names hn).imp_right fun hb hc => not_below_cache hc hb
  · exact (hfiles e he).imp_right fun hb hc => absurd hb (not_below_cache hc)

theorem Tidy.isFolder_cache (h : f.Tidy) : f.isFolder (.inside ["cache"]) = true := by
  simpa [isFolder] using h.cache

theorem start_keptPath (path : String) : start (keptPath path) = .inside [] := by
  simp [start, keptPath]

/-- Where the trees of a source are kept. -/
theorem resolve_keptPath (h : f.Tidy) :
    f.resolve (keptPath path) = .ok (.inside ["cache", keptName path]) := by
  have hroot : f.isFolder (.inside []) = true := by simpa [isFolder] using h.root
  rw [resolve, start_keptPath, splitPath_keptPath]
  simp [walk, child, hroot, h.isFolder_cache, keptName_ne]

theorem isFolder_kept (h : f.Tidy) (name : String) :
    f.isFolder (.inside ["cache", name]) = false := by
  rw [isFolder, ← Bool.not_eq_true, List.contains_iff_mem]
  intro hm
  cases h.folders _ hm rfl

/-- Trees are kept where they belong. -/
theorem write_keptPath (h : f.Tidy) (path : String) (file : File) :
    f.write (keptPath path) file = f.put (.inside ["cache", keptName path]) file := by
  rw [write, start_keptPath, splitPath_keptPath]
  simp [makeFolders, walk, child, h.isFolder_cache, h.file?_folder, keptName_ne, bind, Except.bind]

/-- Trees can always be kept. -/
theorem exists_write_keptPath (h : f.Tidy) (path : String) (time : Int) {ts : List Tree}
    (hts : ∀ t ∈ ts, t.shaped = true) :
    ∃ f', f.write (keptPath path) ⟨time, .trees ts⟩ = .ok f' ∧ f'.Tidy := by
  have hput : ∃ f', f.put (.inside ["cache", keptName path]) ⟨time, .trees ts⟩ = .ok f' := by
    rw [put, isFolder_kept h]
    exact ⟨_, rfl⟩
  obtain ⟨f', hf'⟩ := hput
  refine ⟨f', (write_keptPath h path _).trans hf', tidy_put h hf' fun names hn _ => ?_⟩
  cases hn
  exact ⟨keptName path, ts, rfl, rfl, hts⟩

end Files

/-- The file that a path leads to. -/
def World.found? (w : World) (path : String) : Option File :=
  match w.files.find path with
  | .ok p => w.files.file? p
  | .error _ => none

/-- Trees that are as old as their source are kept in a file. -/
theorem World.kept_file {w : World} {path : String} (h : w.files.Tidy)
    (hs : w.files.sameTime path (keptPath path) = true) :
    ∃ file kept, w.found? path = some file ∧ w.found? (keptPath path) = some kept ∧
      (["cache", keptName path], kept) ∈ w.files.files ∧ file.time = kept.time := by
  simp only [Files.sameTime] at hs
  split at hs
  · rename_i p q hp hq
    obtain ⟨hplace, hfound⟩ := Files.find_ok hq
    cases (Files.resolve_keptPath h).symm.trans hplace
    rw [Files.isThere, Files.isFolder_kept h, Bool.false_or] at hfound
    obtain ⟨kept, hkept⟩ := Option.isSome_iff_exists.mp hfound
    obtain ⟨names, hnames, hm⟩ := Files.mem_of_file? hkept
    cases hnames
    simp only [found?, hp, hq]
    split at hs
    · rename_i file kept' hfile hkept'
      cases hkept.symm.trans hkept'
      exact ⟨file, kept, hfile, hkept, hm, by simpa using hs⟩
    · -- a place that is the same holds the same file
      rename_i hnone
      obtain rfl : p = _ := by simpa using hs
      exact absurd hkept (hnone kept kept hkept)
  · cases hs

/-- Trees that are as old as their source can be had. -/
theorem World.kept_ok {w : World} {path : String} (h : w.files.Tidy)
    (hs : w.files.sameTime path (keptPath path) = true) :
    ∃ file ts, w.found? path = some file ∧
      (["cache", keptName path], ⟨file.time, .trees ts⟩) ∈ w.files.files ∧
      w.kept (keptPath path) = .ok ts ∧ ∀ t ∈ ts, t.shaped = true := by
  obtain ⟨file, ⟨time, content⟩, hfile, hkept, hm, htime⟩ := kept_file h hs
  obtain ⟨name, ts, -, hts, hshaped⟩ := h.files _ hm rfl
  cases hts
  cases htime
  refine ⟨file, ts, hfile, hm, ?_, hshaped⟩
  unfold found? at hkept
  split at hkept
  · rename_i p hp
    have hplace : (w.files.find (keptPath path)).mapError Failure.file = .ok p := by
      rw [hp]
      rfl
    simp only [World.kept, hplace, bind, Except.bind, hkept]
    rfl
  · cases hkept

end Docblock.Docs
