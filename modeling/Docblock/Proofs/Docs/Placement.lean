import Docblock.Proofs.Docs.Session
import Docblock.Proofs.Docs.Total

/-! The header that a member of a class stands under in the documentation of a module. -/
namespace Docblock.Docs

open Docblock.Tree Docblock.Filter

/-- An entry with the number of the node that it is made for. -/
structure Made where
  node : Nat
  entry : Entry
  deriving DecidableEq

/-- The entries for declarations, each with the number of its node; the first has number `n`. -/
def origins (o : Options) (n : Nat) (last : Tree) : List Tree → Except AccessError (List Made)
  | [] => .ok []
  | t :: ts => do
    let es ← describe o 0 last t
    return es.map (Made.mk n) ++ (← origins o (n + 1) t ts)

/-- The last entry before another one that has a lower level than it. -/
def enclosing (front : List Made) (e : Entry) : Option Made :=
  (front.filter fun m => m.entry.level < e.level).getLast?

def Entry.isMember (e : Entry) : Bool := e.kind = .method || e.kind = .attribute

/-- The entry stands one level below the header of the class or interface it is made for. -/
def UnderOwn (ts : List Tree) (front : List Made) (m : Made) : Prop :=
  ∃ c kind name nodes level text, ts[m.node]? = some c ∧
    container? c = some (kind, .text name, nodes) ∧ m.entry.level = level + 1 ∧
    enclosing front m.entry = some ⟨m.node, ⟨level, kind, name, text⟩⟩

variable {o : Options} {level n : Nat} {last t : Tree} {ts : List Tree} {r : Remark} {e : Entry}
  {es : List Entry} {m : Made} {front back : List Made}

/-- Whether a declaration with this remark has a header. -/
def Remark.shows (o : Options) : Remark → Bool
  | .nothing => o.undocMembers
  | .isPrivate => false
  | .text _ => true

def Remark.lines? : Remark → Option (List String)
  | .text lines => some lines
  | .nothing | .isPrivate => none

theorem entry_eq (kind : EntryKind) (name : String) :
    entry o false level kind name r =
      if r.shows o then [⟨level, kind, name, r.lines?⟩] else [] := by
  cases r with
  | nothing => rw [entry, Bool.or_false, Remark.shows, Remark.lines?]
  | isPrivate | text => rfl

theorem entry_mem {kind : EntryKind} {name : String} (h : e ∈ entry o false level kind name r) :
    e.level = level ∧ e.kind = kind := by
  rw [entry_eq] at h
  split at h
  · rw [List.mem_singleton.mp h]
    exact ⟨rfl, rfl⟩
  · cases h

/-- What is neither a class nor an interface has entries at its own level, and what may stand in
the body of one has entries for members. -/
theorem describe_flat (ht : t.shaped = true) (hl : last.shaped = true) (hc : container? t = none)
    (h : describe o level last t = .ok es) :
    ∀ e ∈ es, e.level = level ∧ (t.isOf memberKinds = true → e.isMember = true) := by
  obtain ⟨r, hr⟩ := remark_shaped hl
  cases form_of_shaped ht with
  | function hp hs =>
    cases (describe_function hs hr).symm.trans h
    exact fun e he => ⟨(entry_mem he).1, fun hm => nomatch hm⟩
  | method hm hp hs =>
    cases (describe_method hs hr).symm.trans h
    intro e he
    split at he
    · cases he
    · obtain ⟨hlevel, hkind⟩ := entry_mem he
      exact ⟨hlevel, fun _ => by simp [Entry.isMember, hkind]⟩
  | attributes hm hv =>
    cases (describe_attributes hr hv).symm.trans h
    intro e he
    split at he
    · cases he
    · obtain ⟨v, -, hv⟩ := List.mem_flatMap.mp he
      obtain ⟨hlevel, hkind⟩ := entry_mem hv
      exact ⟨hlevel, fun _ => by simp [Entry.isMember, hkind]⟩
  | container hc' => cases hc.symm.trans hc'
  | other ho =>
    cases (describe_other ho).symm.trans h
    exact fun e he => nomatch he

/-- The entries for the body of a class stand at one level and are for members. -/
theorem describeAll_members (hs : ∀ t ∈ ts, t.shaped = true) (hl : last.shaped = true)
    (hm : ∀ t ∈ ts, t.isOf memberKinds = true) (h : describeAll o level last ts = .ok es) :
    ∀ e ∈ es, e.level = level ∧ e.isMember = true := by
  induction ts generalizing last es with
  | nil =>
    cases h
    exact fun e he => nomatch he
  | cons t ts ih =>
    obtain ⟨ht, hts⟩ := List.forall_mem_cons.mp hs
    obtain ⟨hmt, hmts⟩ := List.forall_mem_cons.mp hm
    obtain ⟨own, hown⟩ := describe_shaped o level last t hl ht
    obtain ⟨rest, hrest⟩ := describeAll_shaped o level t ts ht hts
    rw [describeAll, hown, hrest] at h
    cases h
    have hflat := describe_flat ht hl (container?_of_member hmt) hown
    refine List.forall_mem_append.mpr ⟨fun e he => ?_, ih hts ht hmts hrest⟩
    exact ⟨(hflat e he).1, (hflat e he).2 hmt⟩

/-- An element of two lists in a row is one of the first or one of the second. -/
theorem split_append {α : Type} {xs ys front back : List α} {a : α}
    (h : xs ++ ys = front ++ a :: back) :
    (∃ rest, xs = front ++ a :: rest) ∨ ∃ rest, front = xs ++ rest ∧ ys = rest ++ a :: back := by
  obtain ⟨rest, hfront, hys⟩ | ⟨rest, hxs, hback⟩ := List.append_eq_append_iff.mp h
  · exact .inr ⟨rest, hfront, hys⟩
  · cases rest with
    | nil => exact .inr ⟨[], by simp_all⟩
    | cons b rest =>
      cases hback
      exact .inl ⟨rest, hxs⟩

/-- An entry below the level of a node is for a member of a class or interface, and what comes
before it there are the header, if there is one, and further members. -/
theorem describe_below {own rest : List Entry} (ht : t.shaped = true) (hl : last.shaped = true)
    (h : describe o level last t = .ok (own ++ e :: rest)) (he : level < e.level) :
    ∃ kind name nodes r ms, container? t = some (kind, .text name, nodes) ∧
      remark last = .ok r ∧ e.level = level + 1 ∧ e.isMember = true ∧
      own = entry o false level kind name r ++ ms ∧ ∀ m ∈ ms, m.level = level + 1 := by
  have hflat : container? t ≠ none := by
    intro hc
    have hlevel := (describe_flat ht hl hc h e (by simp)).1
    omega
  cases form_of_shaped ht with
  | function | method | attributes => exact absurd rfl hflat
  | other ho => exact absurd (container?_of_other ho) hflat
  | @container _ kind name ns hc hs hm =>
    obtain ⟨r, hr⟩ := remark_shaped hl
    obtain ⟨ms, hms⟩ := describeAll_shaped o (level + 1) .null ns rfl hs
    have hmembers : ∀ m ∈ if o.members then ms else [],
        m.level = level + 1 ∧ m.isMember = true := by
      split
      · exact describeAll_members hs rfl hm hms
      · exact fun m hmem => nomatch hmem
    have hall := Except.ok.inj ((describe_container hc hr hms).symm.trans h)
    split at hall
    · simp at hall
    · obtain ⟨rest', hheader⟩ | ⟨front, hown, hbody⟩ := split_append hall
      · have hmem : e ∈ entry o false level kind (Tree.text name).display r := by simp [hheader]
        have hlevel := (entry_mem hmem).1
        omega
      · rw [hbody] at hmembers
        obtain ⟨hlevel, hmember⟩ := hmembers e (by simp)
        exact ⟨kind, name, .list ns, r, front, hc, hr, hlevel, hmember, hown,
          fun m hm => (hmembers m (List.mem_append_left _ hm)).1⟩

theorem map_entry_mk (n : Nat) (es : List Entry) : (es.map (Made.mk n)).map Made.entry = es := by
  rw [List.map_map]
  exact List.map_id es

/-- The entries with their origins are the entries. -/
theorem origins_shaped (hs : ∀ t ∈ ts, t.shaped = true) (hl : last.shaped = true) :
    ∃ ms, origins o n last ts = .ok ms ∧ describeAll o 0 last ts = .ok (ms.map Made.entry) := by
  induction ts generalizing n last with
  | nil => exact ⟨[], rfl, by rw [describeAll]; rfl⟩
  | cons t ts ih =>
    obtain ⟨ht, hts⟩ := List.forall_mem_cons.mp hs
    obtain ⟨own, hown⟩ := describe_shaped o 0 last t hl ht
    obtain ⟨ms, hms, hrest⟩ := ih (n := n + 1) hts ht
    refine ⟨own.map (Made.mk n) ++ ms, ?_, ?_⟩
    · rw [origins, hown, hms]
      rfl
    · rw [describeAll, hown, hrest, List.map_append, map_entry_mk]
      rfl

/-- Before an entry stand those of earlier nodes and then those that its own node has before it. -/
theorem origins_split (hs : ∀ t ∈ ts, t.shaped = true) (hl : last.shaped = true)
    (h : origins o n last ts = .ok (front ++ m :: back)) :
    ∃ before c after earlier own rest, ts = before ++ c :: after ∧ m.node = n + before.length ∧
      origins o n last before = .ok earlier ∧
      describe o 0 (before.getLastD last) c = .ok (own ++ m.entry :: rest) ∧
      front = earlier ++ own.map (Made.mk m.node) := by
  induction ts generalizing n last front with
  | nil => cases front <;> cases h
  | cons t ts ih =>
    obtain ⟨ht, hts⟩ := List.forall_mem_cons.mp hs
    obtain ⟨es, hes⟩ := describe_shaped o 0 last t hl ht
    obtain ⟨ms, hms, -⟩ := origins_shaped (o := o) (n := n + 1) hts ht
    rw [origins, hes, hms] at h
    obtain ⟨rest, hfirst⟩ | ⟨front', hfront, hlater⟩ := split_append (Except.ok.inj h)
    · obtain ⟨own, tail, rfl, rfl, htail⟩ := List.map_eq_append_iff.mp hfirst
      obtain ⟨e, rest, rfl, rfl, -⟩ := List.map_eq_cons_iff.mp htail
      exact ⟨[], t, ts, [], own, rest, rfl, rfl, rfl, hes, rfl⟩
    · rw [hlater] at hms
      obtain ⟨before, c, after, earlier, own, rest, hts', hnode, hearlier, hc, hf⟩ := ih hts ht hms
      refine ⟨t :: before, c, after, es.map (Made.mk n) ++ earlier, own, rest, ?_, ?_, ?_, ?_, ?_⟩
      · rw [hts', List.cons_append]
      · rw [hnode, List.length_cons]
        omega
      · rw [origins, hes, hearlier]
        rfl
      · rwa [List.getLastD_cons]
      · rw [hfront, hf, List.append_assoc]

theorem origins_node_lt {ms : List Made} (hs : ∀ t ∈ ts, t.shaped = true)
    (hl : last.shaped = true) (h : origins o n last ts = .ok ms) :
    ∀ m ∈ ms, m.node < n + ts.length := by
  intro m hm
  obtain ⟨front, back, rfl⟩ := List.append_of_mem hm
  obtain ⟨before, c, after, -, -, -, rfl, hnode, -⟩ := origins_split hs hl h
  rw [hnode, List.length_append, List.length_cons]
  omega

/-- Entries of a node that stand no lower than another entry do not enclose it. -/
theorem enclosing_siblings {header siblings : List Entry}
    (h : ∀ u ∈ siblings, e.level ≤ u.level) :
    enclosing (front ++ (header ++ siblings).map (Made.mk n)) e =
      enclosing (front ++ header.map (Made.mk n)) e := by
  have hnone : ((siblings.map (Made.mk n)).filter fun m => m.entry.level < e.level) = [] := by
    rw [List.filter_eq_nil_iff, List.forall_mem_map]
    intro u hu
    rw [decide_eq_true_eq]
    exact Nat.not_lt.mpr (h u hu)
  rw [List.map_append, ← List.append_assoc, enclosing, List.filter_append, hnone,
    List.append_nil, enclosing]

theorem enclosing_concat (h : m.entry.level < e.level) : enclosing (front ++ [m]) e = some m := by
  simp [enclosing, List.filter_append, h]

theorem enclosing_mem (h : enclosing front e = some m) : m ∈ front :=
  (List.mem_filter.mp (List.mem_of_getLast? h)).1

theorem shaped_getLastD (hs : ∀ t ∈ ts, t.shaped = true) (hl : last.shaped = true) :
    (ts.getLastD last).shaped = true := by
  induction ts generalizing last with
  | nil => exact hl
  | cons t ts ih =>
    obtain ⟨ht, hts⟩ := List.forall_mem_cons.mp hs
    rw [List.getLastD_cons]
    exact ih hts ht

/-- In the documentation of a module, an indented entry is for a member of a class or interface.
It stands under the header of that one if there is a header, and else under what an earlier node
has left there, if anything. -/
theorem parse_underOwn {f g : Filter} {file : Option String} {text : List Char}
    (h : f.parse file text = (.ok ts, g)) (o : Options) :
    ∃ ms, origins o 0 .null ts = .ok ms ∧ moduleEntries o ts = .ok (ms.map Made.entry) ∧
      ∀ front m back, ms = front ++ m :: back → 0 < m.entry.level →
        m.entry.isMember = true ∧ (ts[m.node]?.bind container?).isSome = true ∧
        ∃ r, remark ((ts.take m.node).getLastD .null) = .ok r ∧
          (r.shows o = true → UnderOwn ts front m) ∧
          (r.shows o = false → ∀ u, enclosing front m.entry = some u → u.node < m.node) := by
  have hs := parse_shaped h
  obtain ⟨ms, hms, hentries⟩ := origins_shaped (o := o) (n := 0) hs shaped_null
  refine ⟨ms, hms, hentries, ?_⟩
  rintro front m back rfl hlevel
  obtain ⟨before, c, after, earlier, own, rest, rfl, hnode, hearlier, hown, rfl⟩ :=
    origins_split hs shaped_null hms
  obtain ⟨hbefore, hc⟩ := List.forall_mem_append.mp hs
  obtain ⟨kind, name, nodes, r, siblings, hkind, hr, hdeep, hmember, rfl, hsiblings⟩ :=
    describe_below (hc c List.mem_cons_self) (shaped_getLastD hbefore shaped_null) hown hlevel
  rw [Nat.zero_add] at hnode
  have hnth : (before ++ c :: after)[m.node]? = some c := by simp [hnode]
  refine ⟨hmember, by simp [hnth, hkind], r, ?_, ?_⟩
  · rw [hnode, List.take_left]
    exact hr
  -- The members before this one have its level, so only the header is left to enclose it.
  have hheader : enclosing (earlier ++ (entry o false 0 kind name r ++ siblings).map (.mk m.node))
      m.entry = enclosing (earlier ++ (entry o false 0 kind name r).map (.mk m.node)) m.entry :=
    enclosing_siblings fun u hu => Nat.le_of_eq (hdeep.trans (hsiblings u hu).symm)
  constructor
  · intro hshows
    refine ⟨c, kind, name, nodes, 0, r.lines?, hnth, hkind, hdeep, ?_⟩
    rw [hheader, entry_eq, if_pos hshows]
    exact enclosing_concat hlevel
  · intro hshows u hu
    rw [hheader, entry_eq, if_neg (Bool.eq_false_iff.mp hshows), List.map_nil,
      List.append_nil] at hu
    have hlt := origins_node_lt hbefore shaped_null hearlier u (enclosing_mem hu)
    rwa [Nat.zero_add, ← hnode] at hlt

/-- A class with documentation, then one without, each with one documented method. -/
def twoClasses : List Char :=
  ("<?php\n/** docs of A */\nclass A \x7b\n/** docs of f */\nfunction f() \x7b\x7d\n\x7d\n" ++
    "class B \x7b\n/** docs of g */\nfunction g() \x7b\x7d\n\x7d\n").toList

def headerA : Made := ⟨1, ⟨0, .classType, "A", some ["docs of A"]⟩⟩

def methodOfA : Made := ⟨1, ⟨1, .method, "f()", some ["docs of f"]⟩⟩

def methodOfB : Made := ⟨2, ⟨1, .method, "g()", some ["docs of g"]⟩⟩

theorem parse_twoClasses : ∃ ts g, (fresh []).parse none twoClasses = (.ok ts, g) ∧
    origins ⟨true, false⟩ 0 .null ts = .ok [headerA, methodOfA, methodOfB] ∧
    remark ((ts.take 1).getLastD .null) = .ok (.text ["docs of A"]) := by
  obtain ⟨ts, g, h, hp⟩ := exists_parse_any (fresh []) none twoClasses
    (p := fun ts =>
      (origins ⟨true, false⟩ 0 .null ts).toOption = some [headerA, methodOfA, methodOfB] ∧
      (remark ((ts.take 1).getLastD .null)).toOption = some (.text ["docs of A"]))
    (by
      unfold twoClasses
      rw [String.toList_append, String.toList_ofList, String.toList_ofList]
      decide +kernel)
  obtain ⟨horigins, hremark⟩ := of_decide_eq_true hp
  exact ⟨ts, g, h, ok_of_toOption horigins, ok_of_toOption hremark⟩

theorem parse_underOwn_documented : ∃ ts g, (fresh []).parse none twoClasses = (.ok ts, g) ∧
    origins ⟨true, false⟩ 0 .null ts = .ok [headerA, methodOfA, methodOfB] ∧
    UnderOwn ts [headerA] methodOfA := by
  obtain ⟨ts, g, h, horigins, hremark⟩ := parse_twoClasses
  obtain ⟨ms, hms, -, hall⟩ := parse_underOwn h ⟨true, false⟩
  cases horigins.symm.trans hms
  obtain ⟨-, -, r, hr, hshown, -⟩ := hall [headerA] methodOfA [methodOfB] rfl (by decide)
  cases hremark.symm.trans hr
  exact ⟨ts, g, h, horigins, hshown rfl⟩

/-- The method of a class without a header stands under the class before it. -/
theorem not_underOwn_undocumented : ∃ ts g, (fresh []).parse none twoClasses = (.ok ts, g) ∧
    origins ⟨true, false⟩ 0 .null ts = .ok [headerA, methodOfA, methodOfB] ∧
    enclosing [headerA, methodOfA] methodOfB.entry = some headerA ∧
    ¬ UnderOwn ts [headerA, methodOfA] methodOfB := by
  obtain ⟨ts, g, h, horigins, -⟩ := parse_twoClasses
  have hA : enclosing [headerA, methodOfA] methodOfB.entry = some headerA := by decide
  refine ⟨ts, g, h, horigins, hA, ?_⟩
  rintro ⟨c, kind, name, nodes, level, text, -, -, -, hB⟩
  cases hA.symm.trans hB

end Docblock.Docs
