import TarHeader.FileTree

/- The names in a file tree. Every step of a path is a name that a file can have, so is every part
   of a place that a path leads to, through links too (`FileTree.named_walk`). Files are made only
   at such places. So whatever is done to a tree, its directories list names of files
   (`FileTree.Built.wellNamed_view`). A path whose steps only go down, past no link, leads to a
   place that is found by recursion on the steps (`FileTree.walk_of_descend?`). -/
namespace TarHeader

namespace FileView

/-- A name that a directory can have for a child. -/
structure IsChildName (name : Text) : Prop where
  ne_nil : name ≠ []
  slashFree : '/' ∉ name

instance (name : Text) : Decidable (IsChildName name) :=
  decidable_of_iff (name ≠ [] ∧ '/' ∉ name) ⟨fun h => ⟨h.1, h.2⟩, fun h => ⟨h.1, h.2⟩⟩

/-- Directories list the names of their children and no paths. -/
def WellNamed (files : FileView) : Prop :=
  ∀ path names, files.children path = .ok names → ∀ child ∈ names, IsChildName child

end FileView

namespace FileTree

open FileView (IsChildName)

variable {t t' : FileTree} {here place : Place} {todo : List Text} {path : Text} {follow : Bool}
  {links : Nat} {node : FileNode}

/-! The steps of a path -/

theorem slashFree_of_mem_split {name : Text} (h : name ∈ split path) : '/' ∉ name := by
  induction path generalizing name with
  | nil =>
    rw [List.mem_singleton.mp h]
    exact List.not_mem_nil
  | cons c rest ih =>
    rw [split] at h
    split at h
    · rcases List.mem_cons.mp h with rfl | h
      · exact List.not_mem_nil
      · exact ih h
    · next hc =>
      cases hrest : split rest with
      | nil =>
        rw [hrest] at h
        rw [List.mem_singleton.mp h, List.mem_singleton]
        exact Ne.symm hc
      | cons first others =>
        rw [hrest] at h
        rcases List.mem_cons.mp h with rfl | h
        · have hfirst : '/' ∉ first := ih (hrest ▸ List.mem_cons_self)
          exact fun hmem => (List.mem_cons.mp hmem).elim (fun heq => hc heq.symm) hfirst
        · exact ih (hrest ▸ List.mem_cons_of_mem first h)

theorem isChildName_of_mem_steps {step : Text} (h : step ∈ steps path) : IsChildName step := by
  have hnames : ∀ name ∈ (split path).filter (· ≠ []), IsChildName name := by
    intro name hname
    obtain ⟨hmem, hne⟩ := List.mem_filter.mp hname
    exact ⟨of_decide_eq_true hne, slashFree_of_mem_split hmem⟩
  rw [steps] at h
  split at h
  · rcases List.mem_append.mp h with h | h
    · exact hnames step h
    · rw [List.mem_singleton.mp h]
      decide
  · exact hnames step h

/-! Where a path leads -/

/-- A place whose parts are names of files. -/
def Named (place : Place) : Prop := ∀ name ∈ place, IsChildName name

/-- A tree with files at such places only. -/
structure WellNamed (t : FileTree) : Prop where
  nodes : ∀ node ∈ t.nodes, Named node.1
  workDir : Named t.workDir

theorem named_start (h : Named here) (path : Text) : Named (start here path) := by
  unfold start
  split
  · exact List.forall_mem_nil _
  · exact h

theorem named_concat {name : Text} (h : Named place) (hname : IsChildName name) :
    Named (place ++ [name]) :=
  List.forall_mem_append.mpr ⟨h, List.forall_mem_singleton.mpr hname⟩

theorem named_walk (hhere : Named here) (htodo : ∀ step ∈ todo, IsChildName step)
    (h : t.walk follow links here todo = .ok place) : Named place := by
  fun_induction walk t follow links here todo with
  | case1 links here =>
    cases h
    exact hhere
  | case2 links here rest hnode ih =>
    exact ih hhere (List.forall_mem_cons.mp htodo).2 h
  | case3 links here rest hnode hdot ih =>
    have habove : Named here.dropLast :=
      fun name hname => hhere name (List.dropLast_subset here hname)
    exact ih habove (List.forall_mem_cons.mp htodo).2 h
  | case4 | case6 =>
    rw [← Except.ok.inj h]
    exact named_concat hhere (List.forall_mem_cons.mp htodo).1
  | case8 here step rest hnode hdot hdots next target hlink hpast links ih =>
    -- The steps of the link are taken first.
    refine ih (named_start hhere target) (List.forall_mem_append.mpr ⟨?_, ?_⟩) h
    · exact fun step hstep => isChildName_of_mem_steps hstep
    · exact (List.forall_mem_cons.mp htodo).2
  | case9 links here step rest hnode hdot hdots next node hother hnext ih =>
    obtain ⟨hstep, hrest⟩ := List.forall_mem_cons.mp htodo
    exact ih (named_concat hhere hstep) hrest h
  | case5 | case7 | case10 | case11 => cases h

theorem named_locate (ht : t.WellNamed) (h : t.locate follow path = .ok place) : Named place := by
  unfold locate at h
  split at h
  · cases h
  · exact named_walk (named_start ht.workDir path) (fun _ => isChildName_of_mem_steps) h

/-! Paths that lead down -/

/-- The place that some steps lead to if they go down only, through directories. -/
def descend? (t : FileTree) (here : Place) : List Text → Option Place
  | [] => some here
  | step :: rest =>
    match t.node? here with
    | some .directory =>
      if step = ['.'] then t.descend? here rest
      else if step = ['.', '.'] then none
      else match t.node? (here ++ [step]) with
        | none => if rest = [] then some (here ++ [step]) else none
        | some (.link _) => none
        | some _ => t.descend? (here ++ [step]) rest
    | _ => none

/-- No link is met on the way down, so it is the same whether links are followed or not. -/
theorem walk_of_descend? (h : t.descend? here todo = some place) :
    t.walk follow links here todo = .ok place := by
  fun_induction descend? t here todo with
  | case1 here =>
    cases h
    unfold walk
    rfl
  | case2 here rest hnode ih =>
    unfold walk
    simp only [hnode, if_true]
    exact ih h
  | case4 here step hnode hdot hdots hnext =>
    cases h
    unfold walk
    simp only [hnode, hdot, hdots, hnext, if_true, if_false]
  | case7 here step rest hnode hdot hdots node hother hnext ih =>
    unfold walk
    simp only [hnode, hdot, hdots, hnext, if_false]
    exact ih h
  | case3 | case5 | case6 | case8 => cases h

theorem locate_of_descend? (hpath : path ≠ [])
    (h : t.descend? (start t.workDir path) (steps path) = some place) :
    t.locate follow path = .ok place := by
  rw [locate, if_neg hpath]
  exact walk_of_descend? h

theorem resolve_of_descend? (hpath : path ≠ [])
    (h : t.descend? (start t.workDir path) (steps path) = some place)
    (hnode : t.node? place = some node) : t.resolve follow path = .ok place := by
  refine Fault.bind_eq_ok.mpr ⟨place, locate_of_descend? hpath h, ?_⟩
  rw [hnode]
  rfl

theorem stat_of_descend? {stat : FileStat} (hpath : path ≠ [])
    (h : t.descend? (start t.workDir path) (steps path) = some place)
    (hstat : t.statAt place = .ok stat) : t.view.stat path = .ok stat := by
  cases hnode : t.node? place with
  | none =>
    rw [statAt, hnode] at hstat
    cases hstat
  | some node => exact Fault.bind_eq_ok.mpr ⟨place, resolve_of_descend? hpath h hnode, hstat⟩

theorem children_of_descend? (hpath : path ≠ [])
    (h : t.descend? (start t.workDir path) (steps path) = some place)
    (hnode : t.node? place = some node) : t.view.children path = .ok (t.namesIn place) :=
  Fault.bind_eq_ok.mpr ⟨place, resolve_of_descend? hpath h hnode, rfl⟩

/-! What is done to a tree -/

theorem WellNamed.insert (ht : t.WellNamed) (hplace : Named place) :
    (t.insert place node).WellNamed where
  nodes := by
    refine List.forall_mem_cons.mpr ⟨hplace, fun other hother => ?_⟩
    exact ht.nodes other (List.mem_filter.mp hother).1
  workDir := ht.workDir

theorem WellNamed.erase (ht : t.WellNamed) : (t.erase place).WellNamed where
  nodes := fun node hnode => ht.nodes node (List.mem_filter.mp hnode).1
  workDir := ht.workDir

theorem WellNamed.makeSteps (ht : t.WellNamed) (hhere : Named here)
    (htodo : ∀ step ∈ todo, IsChildName step) (h : t.makeSteps here todo = .ok t') :
    t'.WellNamed := by
  induction todo generalizing t here with
  | nil =>
    unfold FileTree.makeSteps at h
    split at h
    · cases h
      exact ht
    · cases h
  | cons step rest ih =>
    obtain ⟨hstep, hrest⟩ := List.forall_mem_cons.mp htodo
    have hone : ∀ step' ∈ [step], IsChildName step' := List.forall_mem_singleton.mpr hstep
    obtain ⟨next, hnext, h⟩ := Fault.bind_eq_ok.mp h
    have hnamed : Named next := named_walk hhere hone hnext
    simp only at h
    split at h
    · exact ih (ht.insert hnamed) hnamed hrest h
    · obtain ⟨next', hnext', h⟩ := Fault.bind_eq_ok.mp h
      have hnamed' : Named next' := named_walk hhere hone hnext'
      split at h
      · cases h
      · exact ih ht hnamed' hrest h

/-- Where nothing is a step makes a directory. -/
theorem makeSteps_free {step : Text} (h : t.descend? here [step] = some place)
    (hfree : t.node? place = none) :
    t.makeSteps here (step :: todo) = (t.insert place .directory).makeSteps place todo := by
  rw [makeSteps, walk_of_descend? h]
  show (if (t.node? place).isNone then (t.insert place .directory).makeSteps place todo else _) = _
  rw [hfree]
  rfl

theorem makeFile_free {size : UInt64} {modified : Instant} (hpath : path ≠ [])
    (h : t.descend? (start t.workDir path) (steps path) = some place)
    (hfree : t.node? place = none) :
    t.makeFile path size modified = .ok (t.insert place (.file size modified)) := by
  refine Fault.bind_eq_ok.mpr ⟨place, locate_of_descend? hpath h, ?_⟩
  rw [hfree]
  rfl

/-- Trees that are made step by step. A step that fails changes nothing. -/
inductive Built : FileTree → Prop where
  | scratch : Built scratch
  | makeDirectory {t t' : FileTree} {path : Text} (h : Built t)
      (hdone : t.makeDirectory path = .ok t') : Built t'
  | makeFile {t t' : FileTree} {path : Text} {size : UInt64} {modified : Instant} (h : Built t)
      (hdone : t.makeFile path size modified = .ok t') : Built t'
  | makeLink {t t' : FileTree} {path target : Text} (h : Built t)
      (hdone : t.makeLink path target = .ok t') : Built t'
  | remove {t t' : FileTree} {path : Text} (h : Built t) (hdone : t.remove path = .ok t') : Built t'

theorem Built.wellNamed (h : Built t) : t.WellNamed := by
  induction h with
  | scratch =>
    refine ⟨?_, ?_⟩
    · show ∀ node ∈ FileTree.scratch.nodes, ∀ name ∈ node.1, IsChildName name
      decide
    · show ∀ name ∈ FileTree.scratch.workDir, IsChildName name
      decide
  | makeDirectory _ hdone ih =>
    exact ih.makeSteps (named_start ih.workDir _) (fun _ => isChildName_of_mem_steps) hdone
  | makeFile _ hdone ih =>
    obtain ⟨place, hplace, hdone⟩ := Fault.bind_eq_ok.mp hdone
    split at hdone
    · cases hdone
    · cases hdone
      exact ih
    · cases hdone
      exact ih.insert (named_locate ih hplace)
  | makeLink _ hdone ih =>
    obtain ⟨place, hplace, hdone⟩ := Fault.bind_eq_ok.mp hdone
    simp only at hdone
    split at hdone
    · cases hdone
    · cases hdone
      exact ih.insert (named_locate ih hplace)
  | remove _ hdone ih =>
    obtain ⟨place, hplace, hdone⟩ := Fault.bind_eq_ok.mp hdone
    cases hdone
    exact ih.erase

/-- Directories list names of files, whatever was done before. -/
theorem Built.wellNamed_view (h : Built t) : t.view.WellNamed := by
  intro path names hnames child hchild
  obtain ⟨place, -, hnames⟩ := Fault.bind_eq_ok.mp hnames
  cases Fault.pure_eq_ok.mp hnames
  obtain ⟨node, hnode, hlast⟩ := List.mem_filterMap.mp hchild
  split at hlast
  · exact h.wellNamed.nodes node hnode child (List.mem_of_getLast? hlast)
  · cases hlast

end FileTree

end TarHeader
