import PipelineShell.Machine.Filesystem

/-!
# Paths through a filesystem that has changed

Where a path leads is a matter of directories and symbolic links alone, whatever the files hold. So it still leads to a file that has
been written (`resolve_setNode`), and a name that was missing leads to the file that has been made under it (`resolve_addEntry`).
-/

namespace PipelineShell

/-- All that leads on in one filesystem leads on in another: the directories with their entries, and the links. Of entries there may be
more. -/
structure Filesystem.Extends (fs fs' : Filesystem) : Prop where
  directory {n : Nat} {d : Directory} : fs.directory? n = some d → ∃ d', fs'.directory? n = some d' ∧ d'.parent = d.parent ∧
    ∀ name m, d.entries.lookup name = some m → d'.entries.lookup name = some m
  link {n : Nat} {target : String} : fs'.node? n = some (.link target) ↔ fs.node? n = some (.link target)

/-- What becomes of a spot: what was found is there, and a name that was missing may be that of a file. -/
inductive Spot.Becomes (fs fs' : Filesystem) : Spot → Spot → Prop
  | found (n up : Nat) (name : String) : Becomes fs fs' (.found n up name) (.found n up name)
  | made {n up mode : Nat} {name : String} {data : Bytes} (file : fs'.node? n = some (.file mode data))
      (named : ∀ d, fs.directory? up = some d → d.entries.lookup name = none →
        ∃ d', fs'.directory? up = some d' ∧ d'.entries.lookup name = some n) :
      Becomes fs fs' (.missing up name) (.found n up name)

namespace Filesystem

variable {fs fs' : Filesystem}

section

variable {last : LastName} {links directory : Nat} {name : String} {rest : List String} {d : Directory}

/-- Where a name leads on to a node. -/
def walkInto (fs : Filesystem) (last : LastName) (links directory : Nat) (name : String) (rest : List String) (n : Nat) :
    Except Errno Spot :=
  match fs.node? n with
  | some (.link target) =>
    if rest = [] ∧ !last.follow ∧ !last.slash then .ok (.found n directory name)
    else match links with
      | 0 => .error .tooManyLinks
      | links + 1 =>
        fs.walk { last with slash := last.slash || (rest.isEmpty && endsWithSlash target) } links
          (if isAbsolute target then 0 else directory) (components target ++ rest)
  | _ =>
    if rest ≠ [] then fs.walk last links n rest
    else if last.slash ∧ (fs.directory? n).isNone then .error .notDirectory
    else .ok (.found n directory name)

/-- A name that may stand in a directory is looked up there. -/
theorem walk_name (hd : fs.directory? directory = some d) (hself : name ≠ ".") (hup : name ≠ "..")
    (hslash : ¬ (rest = [] ∧ last.create = true ∧ last.slash = true)) (hlong : ¬ name.utf8ByteSize > nameMax) {n : Nat}
    (hn : d.entries.lookup name = some n) :
    fs.walk last links directory (name :: rest) = fs.walkInto last links directory name rest n := by
  rw [walk, hd]
  dsimp only
  rw [if_neg hself, if_neg hup, if_neg hslash, if_neg hlong, hn]
  rfl

/-- What is no link is entered or found. -/
theorem walkInto_of_not_link {n : Nat} (hn : ∀ target, fs.node? n ≠ some (.link target)) :
    fs.walkInto last links directory name rest n =
      if rest ≠ [] then fs.walk last links n rest
      else if last.slash ∧ (fs.directory? n).isNone then .error .notDirectory
      else .ok (.found n directory name) := by
  unfold walkInto
  split
  · rename_i target hlink
    exact absurd hlink (hn target)
  · rfl

end

/-- A path along which a file may be made leads to what has become of where it led. -/
theorem Extends.walk (h : fs.Extends fs') {last : LastName} (hcreate : last.create = true) {links directory : Nat} {names : List String}
    {spot spot' : Spot} (hspot : spot.Becomes fs fs' spot') :
    fs.walk last links directory names = .ok spot → fs'.walk last links directory names = .ok spot' := by
  fun_induction Filesystem.walk fs last links directory names with
  | case1 last links directory names hd => exact nofun
  | case2 last links directory d hd =>
    rintro ⟨⟩
    obtain ⟨d', hd', -, -⟩ := h.directory hd
    cases hspot
    rw [Filesystem.walk, hd']
  | case3 last links directory d hd rest ih =>
    intro hok
    obtain ⟨d', hd', -, -⟩ := h.directory hd
    rw [Filesystem.walk, hd']
    exact (if_pos rfl).trans (ih hcreate hok)
  | case4 last links directory d hd rest hself ih =>
    intro hok
    obtain ⟨d', hd', hparent, -⟩ := h.directory hd
    rw [Filesystem.walk, hd']
    exact (if_neg hself).trans ((if_pos rfl).trans (hparent ▸ ih hcreate hok))
  | case5 | case6 | case8 | case10 | case13 => exact nofun
  | case7 last links directory d hd name hself hup hlong hn hslash =>
    rintro ⟨⟩
    cases hspot with
    | made hfile hnamed =>
      obtain ⟨d', hd', hlookup⟩ := hnamed d hd hn
      rw [walk_name hd' hself hup hslash hlong hlookup, walkInto_of_not_link fun target => by rw [hfile]; exact nofun,
        if_neg (not_not_intro rfl)]
      exact if_neg fun hs => hslash ⟨rfl, hcreate, hs.1⟩
  | case9 last links directory d hd name rest hself hup hslash hlong n hn target hlink hend =>
    rintro ⟨⟩
    obtain ⟨d', hd', -, hentries⟩ := h.directory hd
    cases hspot
    rw [walk_name hd' hself hup hslash hlong (hentries _ _ hn), walkInto, h.link.mpr hlink]
    exact if_pos hend
  | case11 last directory d hd name rest hself hup hslash hlong n hn target hlink hend links ih =>
    intro hok
    obtain ⟨d', hd', -, hentries⟩ := h.directory hd
    rw [walk_name hd' hself hup hslash hlong (hentries _ _ hn), walkInto, h.link.mpr hlink]
    exact (if_neg hend).trans (ih hcreate hok)
  | case12 last links directory d hd name rest hself hup hslash hlong n hn hrest hlink ih =>
    intro hok
    obtain ⟨d', hd', -, hentries⟩ := h.directory hd
    rw [walk_name hd' hself hup hslash hlong (hentries _ _ hn), walkInto_of_not_link fun target ht => hlink target (h.link.mp ht),
      if_pos hrest]
    exact ih hcreate hok
  | case14 last links directory d hd name rest hself hup hslash hlong n hn hrest hfound hlink =>
    rintro ⟨⟩
    obtain ⟨d', hd', -, hentries⟩ := h.directory hd
    cases hspot
    rw [walk_name hd' hself hup hslash hlong (hentries _ _ hn), walkInto_of_not_link fun target ht => hlink target (h.link.mp ht),
      if_neg hrest]
    exact if_neg fun hs => hslash ⟨Decidable.not_not.mp hrest, hcreate, hs.1⟩

theorem Extends.resolve (h : fs.Extends fs') {last : LastName} (hcreate : last.create = true) {working : Nat} {path : String}
    {spot spot' : Spot} (hspot : spot.Becomes fs fs' spot') (hok : fs.resolve working path last = .ok spot) :
    fs'.resolve working path last = .ok spot' := by
  unfold Filesystem.resolve follow at *
  by_cases hlong : path.utf8ByteSize ≥ pathMax ∧ !path.toList.contains (Char.ofNat 0)
  · rw [if_pos hlong] at hok
    nomatch hok
  by_cases hnul : path.toList.contains (Char.ofNat 0)
  · rw [if_neg hlong, if_pos hnul] at hok
    nomatch hok
  by_cases hempty : path.isEmpty
  · rw [if_neg hlong, if_neg hnul, if_pos hempty] at hok
    nomatch hok
  rw [if_neg hlong, if_neg hnul, if_neg hempty] at *
  refine Extends.walk h ?_ hspot hok
  exact hcreate

/-! ## Two changes -/

section

variable {n up mode : Nat} {name : String} {data : Bytes} {node : Node}

/-- Changing a node that there is changes no other. -/
theorem node?_setNode (hn : n < fs.nodes.length) (m : Nat) :
    (fs.setNode n node).node? m = if m = n then some node else fs.node? m := by
  unfold node? setNode
  rw [List.getElem?_set]
  by_cases hm : n = m
  · rw [if_pos hm, if_pos (hm ▸ hn), if_pos hm.symm]
  · rw [if_neg hm, if_neg (Ne.symm hm)]

/-- A file that changes leads nowhere, before and after. -/
theorem extends_setNode (hn : fs.node? n = some (.file mode data)) (mode' : Nat) (data' : Bytes) :
    fs.Extends (fs.setNode n (.file mode' data')) := by
  have hlt : n < fs.nodes.length := (List.getElem?_eq_some_iff.mp hn).1
  have hdirectory (m : Nat) : (fs.setNode n (.file mode' data')).directory? m = fs.directory? m := by
    rw [directory?, directory?, node?_setNode hlt]
    by_cases hm : m = n
    · rw [if_pos hm, hm, hn]
    · rw [if_neg hm]
  refine ⟨fun {m d} hd => ⟨d, (hdirectory m).trans hd, rfl, fun _ _ => id⟩, fun {m target} => ?_⟩
  rw [node?_setNode hlt]
  by_cases hm : m = n
  · rw [if_pos hm, hm, hn]
    exact iff_of_false nofun nofun
  · rw [if_neg hm]

/-- A path that leads to a file still does when that has changed. -/
theorem resolve_setNode (hn : fs.node? n = some (.file mode data)) (mode' : Nat) (data' : Bytes) {last : LastName}
    (hcreate : last.create = true) {working m : Nat} {path : String} (hok : fs.resolve working path last = .ok (.found m up name)) :
    (fs.setNode n (.file mode' data')).resolve working path last = .ok (.found m up name) :=
  (extends_setNode hn mode' data').resolve hcreate (.found m up name) hok

theorem node?_addNode (m : Nat) : (fs.addNode node).2.node? m = if m = fs.nodes.length then some node else fs.node? m := by
  unfold node? addNode
  rw [List.getElem?_append]
  obtain hm | rfl | hm := Nat.lt_trichotomy m fs.nodes.length
  · rw [if_pos hm, if_neg (Nat.ne_of_lt hm)]
  · rw [if_neg (Nat.lt_irrefl _), if_pos rfl, Nat.sub_self]
    rfl
  · rw [if_neg (Nat.lt_asymm hm), if_neg (Nat.ne_of_gt hm), List.getElem?_eq_none (Nat.le_of_lt hm)]
    exact List.getElem?_eq_none (Nat.sub_pos_of_lt hm)

variable {d : Directory}

theorem node?_of_directory? (hd : fs.directory? up = some d) : fs.node? up = some (.directory d) := by
  unfold directory? at hd
  split at hd
  · rename_i hnode
    cases hd
    exact hnode
  · nomatch hd

theorem directory?_of_takesNames (h : fs.takesNames up = true) : ∃ d, fs.directory? up = some d := by
  unfold takesNames at h
  cases hd : fs.directory? up with
  | none =>
    rw [hd] at h
    nomatch h
  | some d => exact ⟨d, rfl⟩

/-- Adding an entry to a directory that there is changes that, and the number of the new node. -/
theorem node?_addEntry (hd : fs.directory? up = some d) (m : Nat) :
    (fs.addEntry up name node).2.node? m =
      if m = up then some (.directory { d with entries := d.entries ++ [(name, fs.nodes.length)] })
      else if m = fs.nodes.length then some node else fs.node? m := by
  have hup : up < fs.nodes.length := (List.getElem?_eq_some_iff.mp (node?_of_directory? hd)).1
  have hadded : (fs.addNode node).2.directory? up = some d := by
    rw [directory?, node?_addNode, if_neg (Nat.ne_of_lt hup)]
    exact hd
  have hentry : (fs.addEntry up name node).2 =
      (fs.addNode node).2.setNode up (.directory { d with entries := d.entries ++ [(name, fs.nodes.length)] }) := by
    show (fs.addNode node).2.mapEntries up (· ++ [(name, fs.nodes.length)]) = _
    rw [mapEntries, hadded]
  have hlength : up < (fs.addNode node).2.nodes.length := by
    rw [addNode, List.length_append]
    exact Nat.lt_add_right 1 hup
  rw [hentry, node?_setNode hlength, node?_addNode]

/-- A file that is added leads nowhere; what the directory has had is still there. -/
theorem extends_addEntry (hd : fs.directory? up = some d) (name : String) (mode : Nat) (data : Bytes) :
    fs.Extends (fs.addEntry up name (.file mode data)).2 := by
  have hup := node?_of_directory? hd
  have hnew : fs.node? fs.nodes.length = none := List.getElem?_eq_none (Nat.le_refl _)
  refine ⟨fun {m e} he => ?_, fun {m target} => ?_⟩
  · have hm := node?_of_directory? he
    rw [directory?, node?_addEntry hd]
    by_cases hmup : m = up
    · obtain rfl : d = e := Node.directory.inj (Option.some.inj (hup.symm.trans (hmup ▸ hm)))
      rw [if_pos hmup]
      refine ⟨_, rfl, rfl, fun other k hk => ?_⟩
      rw [List.lookup_append, hk]
      rfl
    · have hlength : m ≠ fs.nodes.length := by
        rintro rfl
        nomatch hnew.symm.trans hm
      rw [if_neg hmup, if_neg hlength, hm]
      exact ⟨e, rfl, rfl, fun _ _ => id⟩
  · rw [node?_addEntry hd]
    by_cases hmup : m = up
    · rw [if_pos hmup, hmup, hup]
      exact iff_of_false nofun nofun
    · rw [if_neg hmup]
      by_cases hlength : m = fs.nodes.length
      · rw [if_pos hlength, hlength, hnew]
        exact iff_of_false nofun nofun
      · rw [if_neg hlength]

theorem node?_added (hd : fs.directory? up = some d) : (fs.addEntry up name node).2.node? fs.nodes.length = some node := by
  have hne : fs.nodes.length ≠ up := fun h => Nat.lt_irrefl _ (h ▸ (List.getElem?_eq_some_iff.mp (node?_of_directory? hd)).1)
  rw [node?_addEntry hd, if_neg hne, if_pos rfl]

/-- What has been added and then changed might have been added so. -/
theorem setNode_addEntry (hd : fs.directory? up = some d) (first second : Node) :
    (fs.addEntry up name first).2.setNode fs.nodes.length second = (fs.addEntry up name second).2 := by
  have hadded : (fs.addEntry up name first).2.node? fs.nodes.length = some first := node?_added hd
  have hlt := (List.getElem?_eq_some_iff.mp hadded).1
  have hnodes (m : Nat) : ((fs.addEntry up name first).2.setNode fs.nodes.length second).node? m =
      (fs.addEntry up name second).2.node? m := by
    rw [node?_setNode hlt]
    by_cases hm : m = fs.nodes.length
    · rw [if_pos hm, hm, node?_added hd]
    · rw [if_neg hm, node?_addEntry hd, node?_addEntry hd, if_neg hm, if_neg hm]
  exact congrArg Filesystem.mk (List.ext_getElem? hnodes)

/-- A path that led to a missing name leads to the file that has been made under it. -/
theorem resolve_addEntry (hd : fs.directory? up = some d) (mode : Nat) (data : Bytes) {last : LastName} (hcreate : last.create = true)
    {working : Nat} {path : String} (hok : fs.resolve working path last = .ok (.missing up name)) :
    (fs.addEntry up name (.file mode data)).2.resolve working path last = .ok (.found fs.nodes.length up name) := by
  refine (extends_addEntry hd name mode data).resolve hcreate (.made (node?_added hd) fun e he hnone => ?_) hok
  obtain rfl : d = e := Option.some.inj (hd.symm.trans he)
  refine ⟨{ d with entries := d.entries ++ [(name, fs.nodes.length)] }, ?_, ?_⟩
  · rw [directory?, node?_addEntry hd, if_pos rfl]
  · rw [List.lookup_append, hnone]
    simp

end

end Filesystem

end PipelineShell
