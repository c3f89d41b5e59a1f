import TarHeader.Entry.File
import TarHeader.Proofs.Attributes.ReadSpec
import TarHeader.Proofs.Entry.NewEntry
import TarHeader.Proofs.FileTree

/- Entries for the children of a bound directory. A child is named after its own path, and the
   directory after a path or as it was told, so what their names have in common is a matter of
   paths. In front of the name of every child stands what its directory is called by its path, and
   nothing where that is the root directory (`FileView.stem`); the rest is the child's own name,
   which has no slash in it (`FileTree.Built.wellNamed_view`). So the name of a directory stands in
   front of that of a child just if it stands in front of the stem, or is the child's
   (`Entry.prefix_name_iff`), and the children lie below a directory named after its path, but
   seldom below one with a name of its own (`Entry.children_of_directory`). -/
namespace TarHeader

/-- Nothing but slashes, as in a path of the root directory. -/
def OnlySlashes (t : Text) : Prop := ∀ c ∈ t, c = '/'

/-- A text that ends in a slash does not reach into one without. -/
theorem prefix_append_iff {t before after : Text} (ht : endsInSlash t = true)
    (hafter : '/' ∉ after) : t <+: before ++ after ↔ t <+: before := by
  constructor
  · intro h
    rcases List.prefix_or_prefix_of_prefix h (List.prefix_append before after) with hshort | hlong
    · exact hshort
    · obtain ⟨rest, rfl⟩ := hlong
      have hrest : rest <+: after := (List.prefix_append_right_inj before).mp h
      by_cases hnil : rest = []
      · simp [hnil]
      · rw [endsInSlash, List.getLast?_append_of_ne_nil _ hnil, beq_iff_eq] at ht
        exact absurd (hrest.subset (List.mem_of_getLast? ht)) hafter
  · intro h
    exact h.trans (List.prefix_append before after)

namespace PathStyle

variable {t : Text}

theorem toSlash_unix : unix.toSlash = id := by
  funext c
  exact toSlash_eq_self fun hstyle => absurd rfl hstyle

theorem normalize_unix (t : Text) : unix.normalize false t = t.dropWhile (· == '/') := by
  show (t.map unix.toSlash).dropWhile (· == '/') = _
  rw [toSlash_unix, List.map_id]

theorem normalize_unix_eq_nil_iff : unix.normalize false t = [] ↔ OnlySlashes t := by
  simp only [normalize_unix, List.dropWhile_eq_nil_iff, beq_iff_eq, OnlySlashes]

/-- The slash at the end is added before or after, with the same outcome. -/
theorem withSlash_normalize_unix (h : ¬ OnlySlashes t) :
    withSlash (unix.normalize false t) = unix.normalize false (withSlash t) := by
  have hleft : unix.normalize false t ≠ [] := mt normalize_unix_eq_nil_iff.mp h
  have hends : endsInSlash (unix.normalize false t) = endsInSlash t := by
    rw [endsInSlash, getLast?_normalize hleft, toSlash_unix, Option.map_id]
    rfl
  unfold withSlash
  rw [hends]
  split
  · rfl
  · rw [normalize_unix] at hleft
    rw [normalize_unix, normalize_unix, List.dropWhile_append, if_neg]
    rwa [List.isEmpty_iff]

end PathStyle

namespace FileView

variable {files : FileView} {path child : Text}

theorem isDirectory_of_stat {stat : FileStat} (h : files.stat path = .ok stat) :
    files.isDirectory path = (stat.kind == .directory) := by
  rw [isDirectory, isKind, h]

/-- What stands in front of the names of the children of the directory at a path. -/
def stem (path : Text) : Text := PathStyle.unix.normalize false (withSlash path)

theorem stem_of_onlySlashes (h : OnlySlashes path) : stem path = [] := by
  apply PathStyle.normalize_unix_eq_nil_iff.mpr
  unfold withSlash
  split
  · exact h
  · exact List.forall_mem_append.mpr ⟨h, fun c hc => List.mem_singleton.mp hc⟩

theorem stem_eq_withSlash (h : ¬ OnlySlashes path) :
    stem path = withSlash (PathStyle.unix.normalize false path) :=
  (PathStyle.withSlash_normalize_unix h).symm

theorem childPath_eq (path child : Text) : childPath path child = withSlash path ++ child := by
  simp only [childPath, withSlash, endsInSlash, beq_iff_eq]
  split
  · rfl
  · exact (List.append_assoc path ['/'] child).symm

theorem normalize_childPath (h : IsChildName child) :
    PathStyle.unix.normalize false (childPath path child) = stem path ++ child := by
  rw [childPath_eq, stem, PathStyle.normalize_unix, PathStyle.normalize_unix, List.dropWhile_append]
  split
  · next hnil =>
    -- Nothing is left of the path, and the name of the child has no slash in front.
    obtain ⟨c, rest, rfl⟩ := List.exists_cons_of_ne_nil h.ne_nil
    have hc : c ≠ '/' := fun hc => h.slashFree (hc ▸ List.mem_cons_self)
    rw [List.isEmpty_iff.mp hnil, List.dropWhile_cons_of_neg (by simpa using hc), List.nil_append]
  · rfl

end FileView

namespace Entry

open FileView (IsChildName WellNamed stem childPath)

variable {files files' : FileView} {path name child t : Text} {e dir : Entry} {entries : List Entry}

/-! The name of an entry that is bound to a file -/

/-- Only the file can be missing. -/
theorem exists_ofFileNamed_iff :
    (∃ e, ofFileNamed files path name = .ok e) ↔ ∃ stat, files.stat path = .ok stat := by
  constructor
  · rintro ⟨e, h⟩
    obtain ⟨stat, hstat, -⟩ := Fault.bind_eq_ok.mp h
    exact ⟨stat, Fault.mapError_eq_ok.mp hstat⟩
  · rintro ⟨stat, hstat⟩
    simp only [ofFileNamed, hstat, Fault.mapError_ok, bind, Except.bind]
    split
    · exact ⟨_, rfl⟩
    · exact ⟨_, rfl⟩

theorem bound_of_ofFileNamed (h : ofFileNamed files path name = .ok e) :
    e.file = some path ∧ e.name =
      if files.isDirectory path then withSlash (PathStyle.unix.normalize false name)
      else PathStyle.unix.normalize false name := by
  obtain ⟨stat, hstat, h⟩ := Fault.bind_eq_ok.mp h
  rw [FileView.isDirectory_of_stat (Fault.mapError_eq_ok.mp hstat)]
  simp only at h
  split at h
  · next hdirectory =>
    cases Fault.pure_eq_ok.mp h
    rw [hdirectory]
    exact ⟨rfl, rfl⟩
  · next hother =>
    cases Fault.pure_eq_ok.mp h
    rw [beq_false_of_ne hother]
    exact ⟨rfl, rfl⟩

theorem isDirectory_of_bound (h : e.file = some path) :
    e.isDirectory files = files.isDirectory path := by
  rw [isDirectory, boundDirectory, h]
  rfl

theorem endsInSlash_append_child (hchild : IsChildName child) (before : Text) :
    endsInSlash (before ++ child) = false := by
  rw [endsInSlash, List.getLast?_append_of_ne_nil _ hchild.ne_nil, beq_eq_false_iff_ne]
  exact fun hlast => hchild.slashFree (List.mem_of_getLast? hlast)

theorem name_of_child (hchild : IsChildName child)
    (h : ofFile files (childPath path child) = .ok e) :
    e.name = stem path ++ child ++ if e.isDirectory files then ['/'] else [] := by
  obtain ⟨hbound, hname⟩ := bound_of_ofFileNamed h
  rw [hname, isDirectory_of_bound hbound, FileView.normalize_childPath hchild]
  split
  · rw [withSlash, endsInSlash_append_child hchild, if_neg Bool.false_ne_true]
  · exact (List.append_nil _).symm

theorem endsInSlash_of_child (hchild : IsChildName child)
    (h : ofFile files (childPath path child) = .ok e) :
    endsInSlash e.name = e.isDirectory files := by
  rw [name_of_child hchild h]
  cases e.isDirectory files with
  | true =>
    rw [if_pos rfl, endsInSlash, List.getLast?_concat]
    rfl
  | false => rw [if_neg Bool.false_ne_true, List.append_nil, endsInSlash_append_child hchild]

/-- What can stand in front of the name of a child: what stands in front of all of them, and the
    name itself. -/
theorem prefix_name_iff (ht : endsInSlash t = true) (hchild : IsChildName child)
    (h : ofFile files (childPath path child) = .ok e) :
    t <+: e.name ↔ t <+: stem path ∨ e.name = t := by
  have hname := name_of_child hchild h
  split at hname
  · rw [hname, List.prefix_concat_iff, prefix_append_iff ht hchild.slashFree, or_comm, eq_comm]
  · rw [List.append_nil] at hname
    rw [hname, prefix_append_iff ht hchild.slashFree]
    refine (or_iff_left_of_imp ?_).symm
    rintro rfl
    exact (prefix_append_iff ht hchild.slashFree).mp List.prefix_rfl

/-! The order of names -/

theorem standsBefore_iff {a b : Text} : standsBefore a b = true ↔ ¬ b < a := by
  rw [standsBefore, Bool.not_eq_true', ← Bool.not_eq_true]
  exact not_congr List.lex_eq_true_iff_lt

theorem standsBefore_trans {a b c : Text} (hab : standsBefore a b = true)
    (hbc : standsBefore b c = true) : standsBefore a c = true := by
  rw [standsBefore_iff, List.not_lt] at *
  exact List.le_trans hab hbc

theorem standsBefore_total (a b : Text) : (standsBefore a b || standsBefore b a) = true := by
  rw [Bool.or_eq_true, standsBefore_iff, standsBefore_iff, List.not_lt, List.not_lt]
  exact List.le_total a b

/-! What a directory is listed as -/

/-- What comes of making an entry for the file of each child. -/
def ofChildren (files : FileView) (path : Text) (names : List Text) : List (Except Fault Entry) :=
  names.map fun child => ofFile files (childPath path child)

/-- Entries for the children of the directory at a path: the one made for the file of each, in the
    order of the names, with a slash at the end of those of directories. -/
structure Lists (files : FileView) (path : Text) (names : List Text) (entries : List Entry) :
    Prop where
  perChild : (entries.map .ok).Perm (ofChildren files path names)
  ordered : entries.Pairwise fun a b => ¬ b.name < a.name
  marked : ∀ e ∈ entries, endsInSlash e.name = true ↔ e.isDirectory files = true

theorem children_eq_ok_iff (hbound : dir.file = some path)
    (hdirectory : files.isDirectory path = true) :
    dir.children files = .ok entries ↔ ∃ names, files.children path = .ok names ∧
      ∃ made : List Entry, ofChildren files path names = made.map .ok ∧
        made.mergeSort (fun a b => standsBefore a.name b.name) = entries := by
  simp only [children, ofChildren, hbound, hdirectory, if_true, Fault.bind_eq_ok,
    Fault.mapError_eq_ok, Fault.mapM_eq_ok, Fault.pure_eq_ok]

/-- A directory is listed if the names in it are and the file behind each can be reached. -/
theorem exists_children_iff (hbound : dir.file = some path)
    (hdirectory : files.isDirectory path = true) :
    (∃ entries, dir.children files = .ok entries) ↔
      ∃ names, files.children path = .ok names ∧
        ∀ child ∈ names, ∃ stat, files.stat (childPath path child) = .ok stat := by
  constructor
  · rintro ⟨entries, h⟩
    obtain ⟨names, hnames, made, hmade, -⟩ := (children_eq_ok_iff hbound hdirectory).mp h
    have hall := Fault.exists_mapM_eq_ok.mp ⟨made, Fault.mapM_eq_ok.mpr hmade⟩
    exact ⟨names, hnames, fun child hchild => exists_ofFileNamed_iff.mp (hall child hchild)⟩
  · rintro ⟨names, hnames, hall⟩
    obtain ⟨made, hmade⟩ :=
      Fault.exists_mapM_eq_ok.mpr fun child hchild => exists_ofFileNamed_iff.mpr (hall child hchild)
    exact ⟨_, (children_eq_ok_iff hbound hdirectory).mpr
      ⟨names, hnames, made, Fault.mapM_eq_ok.mp hmade, rfl⟩⟩

theorem exists_child {names : List Text}
    (h : (entries.map .ok).Perm (ofChildren files path names))
    (he : e ∈ entries) : ∃ child ∈ names, ofFile files (childPath path child) = .ok e :=
  List.mem_map.mp (h.mem_iff.mp (List.mem_map_of_mem he))

theorem lists_of_children (hwell : files.WellNamed) (hbound : dir.file = some path)
    (hdirectory : files.isDirectory path = true) (h : dir.children files = .ok entries) :
    ∃ names, files.children path = .ok names ∧ Lists files path names entries := by
  obtain ⟨names, hnames, made, hmade, rfl⟩ := (children_eq_ok_iff hbound hdirectory).mp h
  have hsorted := List.mergeSort_perm made fun a b => standsBefore a.name b.name
  have hperm := hmade ▸ hsorted.map Except.ok
  refine ⟨names, hnames, hperm, ?_, ?_⟩
  · refine (List.pairwise_mergeSort ?_ ?_ made).imp standsBefore_iff.mp
    · exact fun _ _ _ => standsBefore_trans
    · exact fun a b => standsBefore_total a.name b.name
  · intro e he
    obtain ⟨child, hchild, hfile⟩ := exists_child hperm he
    rw [endsInSlash_of_child (hwell path names hnames child hchild) hfile]

/-- The name of each child is in front of that of an entry. -/
theorem exists_entry_of_children {names : List Text} (hwell : files.WellNamed)
    (hbound : dir.file = some path) (hdirectory : files.isDirectory path = true)
    (h : dir.children files = .ok entries) (hnames : files.children path = .ok names)
    (hchild : child ∈ names) : ∃ e ∈ entries, stem path ++ child <+: e.name := by
  obtain ⟨names', hnames', hlists⟩ := lists_of_children hwell hbound hdirectory h
  cases hnames.symm.trans hnames'
  obtain ⟨e, he, hfile⟩ :=
    List.mem_map.mp (hlists.perChild.mem_iff.mpr (List.mem_map_of_mem hchild))
  refine ⟨e, he, ?_⟩
  rw [name_of_child (hwell path names hnames child hchild) hfile.symm]
  exact List.prefix_append _ _

/-! Where the children lie -/

theorem name_of_directory (hmade : ofFileNamed files path name = .ok dir)
    (hdirectory : files.isDirectory path = true) :
    dir.name = withSlash (PathStyle.unix.normalize false name) := by
  rw [(bound_of_ofFileNamed hmade).2, if_pos hdirectory]

theorem endsInSlash_of_directory (hmade : ofFileNamed files path name = .ok dir)
    (hdirectory : files.isDirectory path = true) : endsInSlash dir.name = true := by
  rw [name_of_directory hmade hdirectory]
  exact endsInSlash_withSlash _

/-- The name of a directory stands in front of those of all children if it does in front of the name
    that the directory has by its path. -/
theorem prefix_stem_iff {own : Entry} (hmade : ofFileNamed files path name = .ok dir)
    (hown : ofFile files path = .ok own) (hdirectory : files.isDirectory path = true)
    (hname : ¬ OnlySlashes name) : dir.name <+: stem path ↔ dir.name <+: own.name := by
  have hdir : dir.name = stem name := by
    rw [name_of_directory hmade hdirectory, FileView.stem_eq_withSlash hname]
  have hends := endsInSlash_of_directory hmade hdirectory
  rw [name_of_directory hown hdirectory]
  by_cases hpath : OnlySlashes path
  · -- The root directory is called `/` and its children have nothing in front.
    have hhead : dir.name.head? ≠ some '/' := by
      rw [hdir]
      exact (PathStyle.normalized_normalize .unix false (withSlash name)).head rfl
    obtain ⟨c, rest, hcons⟩ : ∃ c rest, dir.name = c :: rest := by
      apply List.exists_cons_of_ne_nil
      intro hnil
      rw [hnil] at hends
      cases hends
    rw [FileView.stem_of_onlySlashes hpath, PathStyle.normalize_unix_eq_nil_iff.mpr hpath]
    rw [hcons] at hhead ⊢
    refine iff_of_false ?_ ?_
    · intro hprefix
      cases List.prefix_nil.mp hprefix
    · intro hprefix
      have hc : c = '/' := (List.cons_prefix_cons.mp hprefix).1
      exact hhead (congrArg some hc)
  · rw [FileView.stem_eq_withSlash hpath]

/-- The children of a directory are listed as one entry each. They lie below a directory that is
    named after its path; below one with a name of its own just if that stands in front of the name
    it has by its path, and otherwise only a child of the very same name does. -/
theorem children_of_directory (hwell : files'.WellNamed)
    (hmade : ofFileNamed files path name = .ok dir) (hdirectory : files.isDirectory path = true)
    (hstill : files'.isDirectory path = true) (hlisted : dir.children files' = .ok entries) :
    (∃ names, files'.children path = .ok names ∧ Lists files' path names entries) ∧
    (¬ OnlySlashes path → ofFile files path = .ok dir →
      ∀ e ∈ entries, dir.isAncestor e = true) ∧
    (¬ OnlySlashes name → ∃ own, ofFile files path = .ok own ∧ ∀ e ∈ entries,
      (dir.isAncestor e = true ↔ dir.isAncestor own = true ∨ e.name = dir.name)) := by
  have hbound := (bound_of_ofFileNamed hmade).1
  obtain ⟨names, hnames, hlists⟩ := lists_of_children hwell hbound hstill hlisted
  have hends := endsInSlash_of_directory hmade hdirectory
  have hbelow : ∀ e ∈ entries,
      dir.isAncestor e = true ↔ dir.name <+: stem path ∨ e.name = dir.name := by
    intro e he
    obtain ⟨child, hchild, hfile⟩ := exists_child hlists.perChild he
    rw [isAncestor, List.isPrefixOf_iff_prefix]
    exact prefix_name_iff hends (hwell path names hnames child hchild) hfile
  refine ⟨⟨names, hnames, hlists⟩, ?_, ?_⟩
  · intro hpath hown e he
    have hstem : dir.name = stem path := by
      rw [name_of_directory hown hdirectory, FileView.stem_eq_withSlash hpath]
    exact (hbelow e he).mpr (.inl (hstem ▸ List.prefix_rfl))
  · intro hname
    obtain ⟨own, hown⟩ := exists_ofFileNamed_iff.mpr (exists_ofFileNamed_iff.mp ⟨dir, hmade⟩)
    refine ⟨own, hown, fun e he => ?_⟩
    rw [hbelow e he, isAncestor, List.isPrefixOf_iff_prefix,
      prefix_stem_iff hmade hown hdirectory hname]

/-- A tree with a directory `d`, in which are a directory `a` and a file `b`. -/
def nested : FileTree :=
  { FileTree.scratch with
    nodes := [([['d'], ['b']], .file 5 .epoch), ([['d'], ['a']], .directory),
      ([['d']], .directory)] ++ FileTree.scratch.nodes }

theorem built_nested : nested.Built := by
  -- A path is walked by well-founded recursion, which `rfl` does not get through.
  obtain ⟨t, hdirectory, hfile⟩ : ∃ t, FileTree.scratch.makeDirectory ['/', 'd', '/', 'a'] = .ok t ∧
      t.makeFile ['/', 'd', '/', 'b'] 5 .epoch = .ok nested := by
    refine ⟨(FileTree.scratch.insert [['d']] .directory).insert [['d'], ['a']] .directory, ?_, ?_⟩
    · calc FileTree.scratch.makeDirectory ['/', 'd', '/', 'a']
        _ = (FileTree.scratch.insert [['d']] .directory).makeSteps [['d']] [['a']] :=
          FileTree.makeSteps_free rfl rfl
        _ = _ := FileTree.makeSteps_free rfl rfl
    · exact FileTree.makeFile_free (by decide) rfl rfl
  exact (FileTree.Built.scratch.makeDirectory hdirectory).makeFile hfile

theorem isDirectory_root : nested.view.isDirectory ['/'] = true :=
  (FileView.isDirectory_of_stat (FileTree.stat_of_descend? (by decide) rfl rfl)).trans rfl

theorem isDirectory_nested : nested.view.isDirectory ['/', 'd'] = true :=
  (FileView.isDirectory_of_stat (FileTree.stat_of_descend? (by decide) rfl rfl)).trans rfl

theorem children_root :
    nested.view.children ['/'] = .ok [['d'], ['d', 'e', 'v'], ['w', 'o', 'r', 'k']] :=
  (FileTree.children_of_descend? (by decide) rfl rfl).trans rfl

theorem children_nested : nested.view.children ['/', 'd'] = .ok [['b'], ['a']] :=
  (FileTree.children_of_descend? (by decide) rfl rfl).trans rfl

theorem exists_children_root (hbound : dir.file = some ['/']) :
    ∃ entries, dir.children nested.view = .ok entries ∧ ∃ e ∈ entries, ['d'] <+: e.name := by
  obtain ⟨entries, hentries⟩ : ∃ entries, dir.children nested.view = .ok entries := by
    refine (exists_children_iff hbound isDirectory_root).mpr ⟨_, children_root, ?_⟩
    simp only [List.forall_mem_cons]
    exact ⟨⟨_, FileTree.stat_of_descend? (by decide) rfl rfl⟩,
      ⟨_, FileTree.stat_of_descend? (by decide) rfl rfl⟩,
      ⟨_, FileTree.stat_of_descend? (by decide) rfl rfl⟩, List.forall_mem_nil _⟩
  exact ⟨entries, hentries, exists_entry_of_children built_nested.wellNamed_view hbound
    isDirectory_root hentries children_root List.mem_cons_self⟩

theorem exists_children_nested (hbound : dir.file = some ['/', 'd']) :
    ∃ entries, dir.children nested.view = .ok entries ∧
      ∃ e ∈ entries, ['d', '/', 'b'] <+: e.name := by
  obtain ⟨entries, hentries⟩ : ∃ entries, dir.children nested.view = .ok entries := by
    refine (exists_children_iff hbound isDirectory_nested).mpr ⟨_, children_nested, ?_⟩
    simp only [List.forall_mem_cons]
    exact ⟨⟨_, FileTree.stat_of_descend? (by decide) rfl rfl⟩,
      ⟨_, FileTree.stat_of_descend? (by decide) rfl rfl⟩, List.forall_mem_nil _⟩
  exact ⟨entries, hentries, exists_entry_of_children built_nested.wellNamed_view hbound
    isDirectory_nested hentries children_nested List.mem_cons_self⟩

/-- What is in the directory `d` lies below it. -/
theorem nested_listed : ∃ dir entries, ofFile nested.view ['/', 'd'] = .ok dir ∧
    dir.children nested.view = .ok entries ∧
    (∃ names, nested.view.children ['/', 'd'] = .ok names ∧
      Lists nested.view ['/', 'd'] names entries) ∧
    (∀ e ∈ entries, dir.isAncestor e = true) ∧
    ∃ own, ofFile nested.view ['/', 'd'] = .ok own ∧ ∀ e ∈ entries,
      (dir.isAncestor e = true ↔ dir.isAncestor own = true ∨ e.name = dir.name) := by
  obtain ⟨dir, hdir⟩ : ∃ dir, ofFile nested.view ['/', 'd'] = .ok dir :=
    exists_ofFileNamed_iff.mpr ⟨_, FileTree.stat_of_descend? (by decide) rfl rfl⟩
  obtain ⟨entries, hentries, -⟩ := exists_children_nested (bound_of_ofFileNamed hdir).1
  have hpath : ¬ OnlySlashes ['/', 'd'] := fun h => absurd (h 'd' (by decide)) (by decide)
  obtain ⟨hlists, hbelow, hgiven⟩ :=
    children_of_directory built_nested.wellNamed_view hdir isDirectory_nested isDirectory_nested
      hentries
  exact ⟨dir, entries, hdir, hentries, hlists, hbelow hpath hdir, hgiven hpath⟩

/-- It does not where the directory is called something else, nor does what is in the root directory
    lie below that. -/
theorem nested_not_below : nested.view.WellNamed ∧
    (∃ dir entries, ofFileNamed nested.view ['/', 'd'] ['x'] = .ok dir ∧
      nested.view.isDirectory ['/', 'd'] = true ∧ dir.children nested.view = .ok entries ∧
      ∃ e ∈ entries, dir.isAncestor e = false) ∧
    ∃ dir entries, ofFile nested.view ['/'] = .ok dir ∧ nested.view.isDirectory ['/'] = true ∧
      dir.children nested.view = .ok entries ∧ ∃ e ∈ entries, dir.isAncestor e = false := by
  refine ⟨built_nested.wellNamed_view, ?_, ?_⟩
  · obtain ⟨dir, hdir⟩ : ∃ dir, ofFileNamed nested.view ['/', 'd'] ['x'] = .ok dir :=
      exists_ofFileNamed_iff.mpr ⟨_, FileTree.stat_of_descend? (by decide) rfl rfl⟩
    obtain ⟨entries, hentries, e, he, rest, hname⟩ :=
      exists_children_nested (bound_of_ofFileNamed hdir).1
    refine ⟨dir, entries, hdir, isDirectory_nested, hentries, e, he, ?_⟩
    rw [isAncestor, name_of_directory hdir isDirectory_nested, ← hname]
    rfl
  · obtain ⟨dir, hdir⟩ : ∃ dir, ofFile nested.view ['/'] = .ok dir :=
      exists_ofFileNamed_iff.mpr ⟨_, FileTree.stat_of_descend? (by decide) rfl rfl⟩
    obtain ⟨entries, hentries, e, he, rest, hname⟩ :=
      exists_children_root (bound_of_ofFileNamed hdir).1
    refine ⟨dir, entries, hdir, isDirectory_root, hentries, e, he, ?_⟩
    rw [isAncestor, name_of_directory hdir isDirectory_root, ← hname]
    rfl

end Entry

end TarHeader
