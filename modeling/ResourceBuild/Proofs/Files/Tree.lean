import Mathlib.Tactic.SplitIfs
import ResourceBuild.Proofs.Files.Path
import ResourceBuild.Proofs.Outcome

/-!
# Operations on files

When each operation on a tree of files succeeds, and which tree it makes. Where a path leads only
depends on the directories, so that it leads there still once files were written or moved.
-/

namespace ResourceBuild.Files.Tree

open Outcome

variable {t t' t'' : Tree} {here place : Place} {p q : Path}

/-! ### Walking -/

/-- Where one step leads from a directory. -/
def stepFrom (here : Place) (step : String) : Place :=
  if step = "." then here else if step = ".." then here.dropLast else here ++ [step]

lemma walk_append (t : Tree) (here : Place) (steps more : List String) :
    t.walk here (steps ++ more) = t.walk here steps >>= fun place => t.walk place more := by
  induction steps generalizing here with
  | nil => rfl
  | cons step steps ih =>
    simp only [List.cons_append, walk]
    split
    · rfl
    · rfl
    · split_ifs <;> first | exact ih _ | rfl

/-- Some steps lead somewhere when the first one does and the others do from there. -/
lemma walk_cons_eq_ok {step : String} {steps : List String}
    (h : t.walk here (step :: steps) = .ok place) :
    t.node? here = some .directory ∧ t.walk (stepFrom here step) steps = .ok place := by
  rw [walk] at h
  split at h
  · cases h
  · cases h
  · rename_i hnode
    refine ⟨hnode, ?_⟩
    unfold stepFrom
    split_ifs at h ⊢ <;> exact h

lemma walk_dots {dots : List String} (hdots : ∀ step ∈ dots, step = ".")
    (h : t.walk here dots = .ok place) : place = here := by
  induction dots with
  | nil => cases h; rfl
  | cons step dots ih =>
    rw [List.forall_mem_cons] at hdots
    obtain ⟨-, hrest⟩ := walk_cons_eq_ok h
    rw [stepFrom, if_pos hdots.1] at hrest
    exact ih hdots.2 hrest

/-- Whether two trees have the same directories. -/
def SameDirectories (t t' : Tree) : Prop :=
  ∀ place, t'.node? place = some .directory ↔ t.node? place = some .directory

lemma SameDirectories.refl (t : Tree) : SameDirectories t t := fun _ => Iff.rfl

lemma SameDirectories.symm (h : SameDirectories t t') : SameDirectories t' t :=
  fun place => (h place).symm

lemma SameDirectories.trans (h : SameDirectories t t') (h' : SameDirectories t' t'') :
    SameDirectories t t'' :=
  fun place => (h' place).trans (h place)

/-- Steps lead to the same place in a tree with the same directories. -/
lemma SameDirectories.walk_eq_ok (h : SameDirectories t t') {steps : List String}
    (hwalk : t.walk here steps = .ok place) : t'.walk here steps = .ok place := by
  induction steps generalizing here with
  | nil => exact hwalk
  | cons step steps ih =>
    rw [walk] at hwalk ⊢
    split at hwalk
    · cases hwalk
    · cases hwalk
    · rename_i hnode
      rw [(h here).mpr hnode]
      simp only
      split_ifs at hwalk ⊢ <;> exact ih hwalk

lemma follow_eq_ok_iff : t.follow here p = .ok place ↔
    p.check = .ok () ∧ t.walk (p.startFrom here) p.steps = .ok place := by
  rw [follow, seq_eq_ok_iff]

lemma SameDirectories.follow_eq_ok_iff (h : SameDirectories t t') :
    t'.follow here p = .ok place ↔ t.follow here p = .ok place := by
  rw [Tree.follow_eq_ok_iff, Tree.follow_eq_ok_iff]
  exact and_congr_right fun _ => ⟨h.symm.walk_eq_ok, h.walk_eq_ok⟩

/-! ### What the operations do -/

/-- Whether a path leads to a place where a file may be written. -/
structure Writable (t : Tree) (here : Place) (p : Path) (place : Place) : Prop where
  follow : t.follow here p = .ok place
  bare : p.needsDirectory = false
  free : t.node? place ≠ some .directory

lemma SameDirectories.writable (h : SameDirectories t t') (hp : t.Writable here p place) :
    t'.Writable here p place :=
  ⟨h.follow_eq_ok_iff.mpr hp.follow, hp.bare, fun hnode => hp.free ((h place).mp hnode)⟩

lemma target_eq_ok_iff {n : Option Node} :
    t.target here p = .ok (place, n) ↔ t.Writable here p place ∧ n = t.node? place := by
  rw [target, seq_eq_ok_iff]
  constructor
  · rintro ⟨hcheck, h⟩
    split_ifs at h with hdirectory
    · obtain ⟨_, -, h⟩ := bind_eq_ok_iff.mp h
      cases h
    · obtain ⟨place', hwalk, h⟩ := bind_eq_ok_iff.mp h
      split at h
      · cases h
      · rename_i hfree
        cases h
        exact ⟨⟨follow_eq_ok_iff.mpr ⟨hcheck, hwalk⟩, by simpa using hdirectory, hfree⟩, rfl⟩
  · rintro ⟨⟨hfollow, hbare, hfree⟩, rfl⟩
    obtain ⟨hcheck, hwalk⟩ := follow_eq_ok_iff.mp hfollow
    refine ⟨hcheck, ?_⟩
    rw [if_neg (by simp [hbare]), bind_eq_ok_iff]
    refine ⟨place, hwalk, ?_⟩
    split
    · next hnode => exact absurd hnode hfree
    · rfl

lemma create_eq_ok_iff : t.create here p = .ok t' ↔
    ∃ place, t.Writable here p place ∧ t' = t.put place (.file .empty none) := by
  simp only [create, bind_eq_ok_iff, pure_eq_ok_iff, Prod.exists, target_eq_ok_iff]
  constructor
  · rintro ⟨place, _, ⟨hp, -⟩, rfl⟩
    exact ⟨place, hp, rfl⟩
  · rintro ⟨place, hp, rfl⟩
    exact ⟨place, _, ⟨hp, rfl⟩, rfl⟩

lemma fill_eq_ok_iff {s : String} : t.fill here p s = .ok t' ↔
    ∃ place, t.Writable here p place ∧ t' = t.put place (.file s.toUTF8 none) := by
  simp only [fill, bind_eq_ok_iff, pure_eq_ok_iff, Prod.exists, target_eq_ok_iff]
  constructor
  · rintro ⟨place, _, ⟨hp, -⟩, rfl⟩
    exact ⟨place, hp, rfl⟩
  · rintro ⟨place, hp, rfl⟩
    exact ⟨place, _, ⟨hp, rfl⟩, rfl⟩

lemma Writable.fill_eq_ok (h : t.Writable here p place) (s : String) :
    t.fill here p s = .ok (t.put place (.file s.toUTF8 none)) :=
  fill_eq_ok_iff.mpr ⟨place, h, rfl⟩

/-- What is written at the end of a file stands at its end. -/
lemma append_eq_ok {s : String} (h : t.append here p s = .ok t') :
    ∃ place before program, t.Writable here p place ∧
      t' = t.put place (.file (before ++ s.toUTF8) program) := by
  obtain ⟨⟨place, n⟩, htarget, h⟩ := bind_eq_ok_iff.mp h
  have hp := (target_eq_ok_iff.mp htarget).1
  split at h
  · rename_i place' content program heq
    cases heq
    cases h
    exact ⟨place, content, program, hp, rfl⟩
  · rename_i place' n' _ heq
    cases heq
    cases h
    exact ⟨place, .empty, none, hp, by rw [ByteArray.empty_append]⟩

lemma Writable.append_isOk (h : t.Writable here p place) (s : String) :
    ∃ t', t.append here p s = .ok t' := by
  rw [append, target_eq_ok_iff.mpr ⟨h, rfl⟩]
  cases hnode : t.node? place with
  | none => exact ⟨_, rfl⟩
  | some n =>
    cases n with
    | directory => exact absurd hnode h.free
    | file content program => exact ⟨_, rfl⟩

/-- Where a file is that can be read. -/
structure Holds (t : Tree) (here : Place) (p : Path) (place : Place) (content : ByteArray)
    (program : Option Program) : Prop where
  follow : t.follow here p = .ok place
  bare : p.needsDirectory = false
  node : t.node? place = some (.file content program)

lemma find_eq_ok_iff {n : Node} : t.find here p = .ok (place, n) ↔
    t.follow here p = .ok place ∧ t.node? place = some n ∧
      (n = .directory ∨ p.needsDirectory = false) := by
  rw [find, bind_eq_ok_iff]
  constructor
  · rintro ⟨place', hfollow, h⟩
    split at h
    · cases h
    · rename_i hnode
      cases h
      exact ⟨hfollow, hnode, Or.inl rfl⟩
    · rename_i hnode
      split_ifs at h with hbare
      cases h
      exact ⟨hfollow, hnode, Or.inr (by simpa using hbare)⟩
  · rintro ⟨hfollow, hnode, hbare⟩
    refine ⟨place, hfollow, ?_⟩
    rw [hnode]
    cases n <;> simp_all

lemma read_eq_ok_iff {bytes : ByteArray} : t.read here p = .ok bytes ↔
    ∃ place program, t.Holds here p place bytes program := by
  rw [read, bind_eq_ok_iff]
  constructor
  · rintro ⟨⟨place, n⟩, hfind, h⟩
    obtain ⟨hfollow, hnode, hbare⟩ := find_eq_ok_iff.mp hfind
    split at h
    · rename_i place' content program heq
      cases heq
      cases h
      exact ⟨place, program, hfollow, by simpa using hbare, hnode⟩
    · cases h
  · rintro ⟨place, program, hfollow, hbare, hnode⟩
    exact ⟨(place, .file bytes program), find_eq_ok_iff.mpr ⟨hfollow, hnode, Or.inr hbare⟩, rfl⟩

lemma read_missing (hfollow : t.follow here p = .ok place) (hnode : t.node? place = none) :
    t.read here p = .error .notFound := by
  rw [read, find, hfollow]
  simp only [bind, Except.bind, hnode]

lemma remove_eq_ok_iff : t.remove here p = .ok t' ↔
    ∃ place content program, t.Holds here p place content program ∧ t' = t.erase place := by
  rw [remove, bind_eq_ok_iff]
  constructor
  · rintro ⟨⟨place, n⟩, hfind, h⟩
    obtain ⟨hfollow, hnode, hbare⟩ := find_eq_ok_iff.mp hfind
    split at h
    · rename_i place' content program heq
      cases heq
      cases h
      exact ⟨place, content, program, ⟨hfollow, by simpa using hbare, hnode⟩, rfl⟩
    · cases h
  · rintro ⟨place, content, program, ⟨hfollow, hbare, hnode⟩, rfl⟩
    exact ⟨(place, .file content program), find_eq_ok_iff.mpr ⟨hfollow, hnode, Or.inr hbare⟩, rfl⟩

/-- A file is moved to a path where one may be written. -/
lemma Holds.rename_eq_ok_iff {content : ByteArray} {program : Option Program} {source : Place}
    (h : t.Holds here p source content program) : t.rename here p q = .ok t' ↔
      ∃ goal, t.Writable here q goal ∧ t' = (t.erase source).put goal (.file content program) := by
  have hfind : t.find here p = .ok (source, .file content program) :=
    find_eq_ok_iff.mpr ⟨h.follow, h.node, Or.inr h.bare⟩
  rw [rename, hfind, bind_eq_ok_iff]
  constructor
  · rintro ⟨_, ⟨⟩, h⟩
    obtain ⟨goal, hgoal, h⟩ := bind_eq_ok_iff.mp h
    split_ifs at h with hend hbare
    split at h
    · cases h
    · rename_i hfree
      cases h
      exact ⟨goal, ⟨hgoal, by simpa using hbare, hfree⟩, rfl⟩
  · rintro ⟨goal, ⟨hgoal, hbare, hfree⟩, rfl⟩
    have hend : q.endsInName = true := by
      rw [Path.needsDirectory, Bool.or_eq_false_iff] at hbare
      simpa using hbare.2
    refine ⟨_, rfl, bind_eq_ok_iff.mpr ⟨goal, hgoal, ?_⟩⟩
    rw [if_neg (by simp [hend]), if_neg (by simp [hbare])]
    split
    · next hnode => exact absurd hnode hfree
    · rfl

/-! ### Trees that differ in few places -/

/-- The root is a directory, so whatever is none stands below it. -/
lemma ne_nil_of_not_directory (h : t.node? place ≠ some .directory) : place ≠ [] := by
  rintro rfl
  exact h rfl

/-- The places that some paths lead to. -/
def LedTo (t : Tree) (here : Place) (ps : List Path) (place : Place) : Prop :=
  ∃ p ∈ ps, t.follow here p = .ok place

/-- Whether only files in some places were changed, and no directory was. -/
structure ChangedOnly (touched : Place → Prop) (t t' : Tree) : Prop where
  directories : SameDirectories t t'
  elsewhere : ∀ place, ¬touched place → t'.node? place = t.node? place

section ChangedOnly

variable {touched : Place → Prop}

lemma ChangedOnly.refl (touched : Place → Prop) (t : Tree) : ChangedOnly touched t t :=
  ⟨SameDirectories.refl t, fun _ _ => rfl⟩

lemma ChangedOnly.trans (h : ChangedOnly touched t t') (h' : ChangedOnly touched t' t'') :
    ChangedOnly touched t t'' where
  directories := h.directories.trans h'.directories
  elsewhere other hother := (h'.elsewhere other hother).trans (h.elsewhere other hother)

lemma ChangedOnly.mono {more : Place → Prop} (h : ChangedOnly touched t t')
    (hmore : ∀ place, touched place → more place) : ChangedOnly more t t' where
  directories := h.directories
  elsewhere other hother := h.elsewhere other fun htouched => hother (hmore other htouched)

lemma SameDirectories.ledTo (h : SameDirectories t t') (here : Place) (ps : List Path) :
    LedTo t' here ps = LedTo t here ps := by
  funext place
  simp only [LedTo, h.follow_eq_ok_iff]

/-- A change in a place that holds no directory before and after it. -/
lemma changedOnly_of_elsewhere (hbefore : t.node? place ≠ some .directory)
    (hafter : t'.node? place ≠ some .directory)
    (helsewhere : ∀ other, other ≠ place → t'.node? other = t.node? other) :
    ChangedOnly (· = place) t t' where
  elsewhere := helsewhere
  directories other := by
    by_cases hother : other = place
    · rw [hother]
      exact iff_of_false hafter hbefore
    · rw [helsewhere other hother]

lemma changedOnly_put (h : t.node? place ≠ some .directory) (content : ByteArray)
    (program : Option Program) :
    ChangedOnly (· = place) t (t.put place (.file content program)) := by
  refine changedOnly_of_elsewhere h ?_ fun _ hne => node?_put_of_ne hne _ t
  rw [node?_put_self (ne_nil_of_not_directory h)]
  simp

lemma changedOnly_erase (h : t.node? place ≠ some .directory) :
    ChangedOnly (· = place) t (t.erase place) := by
  refine changedOnly_of_elsewhere h ?_ fun _ hne => node?_erase_of_ne hne t
  rw [node?_erase_self (ne_nil_of_not_directory h)]
  simp

lemma ChangedOnly.symm (h : ChangedOnly touched t t') : ChangedOnly touched t' t where
  directories := h.directories.symm
  elsewhere other hother := (h.elsewhere other hother).symm

/-- To write a file at a path changes no more than the path leads to. -/
lemma ChangedOnly.put {ps : List Path} (h : ChangedOnly (LedTo t here ps) t t') (hmem : p ∈ ps)
    (hp : t'.Writable here p place) (content : ByteArray) (program : Option Program) :
    ChangedOnly (LedTo t here ps) t (t'.put place (.file content program)) := by
  refine h.trans ((changedOnly_put hp.free content program).mono ?_)
  rintro _ rfl
  exact ⟨p, hmem, h.directories.follow_eq_ok_iff.mp hp.follow⟩

lemma ChangedOnly.erase {ps : List Path} (h : ChangedOnly (LedTo t here ps) t t') (hmem : p ∈ ps)
    (hp : t'.Writable here p place) : ChangedOnly (LedTo t here ps) t (t'.erase place) := by
  refine h.trans ((changedOnly_erase hp.free).mono ?_)
  rintro _ rfl
  exact ⟨p, hmem, h.directories.follow_eq_ok_iff.mp hp.follow⟩

/-- A file that was written can be read. -/
lemma Writable.holds_put (h : t.Writable here p place) (content : ByteArray)
    (program : Option Program) :
    (t.put place (.file content program)).Holds here p place content program where
  follow := (changedOnly_put h.free content program).directories.follow_eq_ok_iff.mpr h.follow
  bare := h.bare
  node := node?_put_self (ne_nil_of_not_directory h.free) _ t

lemma Writable.read_erase (h : t.Writable here p place) :
    (t.erase place).read here p = .error .notFound :=
  read_missing ((changedOnly_erase h.free).directories.follow_eq_ok_iff.mpr h.follow)
    (node?_erase_self (ne_nil_of_not_directory h.free) t)

lemma Holds.writable {content : ByteArray} {program : Option Program}
    (h : t.Holds here p place content program) : t.Writable here p place :=
  ⟨h.follow, h.bare, by simp [h.node]⟩

/-- A file that was moved can be read at its new path. -/
lemma ChangedOnly.rename {ps : List Path} {source goal : Place} {content : ByteArray}
    {program : Option Program} (h : ChangedOnly (LedTo t here ps) t t') (hp : p ∈ ps) (hq : q ∈ ps)
    (hsource : t'.Holds here p source content program) (hgoal : t'.Writable here q goal) :
    ChangedOnly (LedTo t here ps) t ((t'.erase source).put goal (.file content program)) ∧
      ((t'.erase source).put goal (.file content program)).Holds here q goal content program := by
  have herased := h.erase hp hsource.writable
  have hgoal' : (t'.erase source).Writable here q goal :=
    (h.directories.symm.trans herased.directories).writable hgoal
  exact ⟨herased.put hq hgoal' content program, hgoal'.holds_put content program⟩

/-- A file in a place that was not touched stays there. -/
lemma ChangedOnly.holds {content : ByteArray} {program : Option Program}
    (h : ChangedOnly touched t t') (hplace : ¬touched place)
    (hp : t.Holds here p place content program) : t'.Holds here p place content program where
  follow := h.directories.follow_eq_ok_iff.mpr hp.follow
  bare := hp.bare
  node := (h.elsewhere place hplace).trans hp.node

end ChangedOnly

/-! ### Neighbours -/

section Neighbours

variable {steps : List String} {name other : String}

/-- Different steps lead to different places if one of them goes to a name. -/
lemma stepFrom_ne (hdot : name ≠ ".") (hup : name ≠ "..") (hne : other ≠ name) (here : Place) :
    stepFrom here other ≠ stepFrom here name := by
  intro heq
  have hlength := congrArg List.length heq
  unfold stepFrom at heq hlength
  rw [if_neg hdot, if_neg hup] at heq hlength
  split_ifs at heq hlength
  · simp at hlength
  · simp at hlength
  · exact hne (by simpa using heq)

/-- A path leads from the directory of its last name, and nowhere but to this name. -/
lemma follow_name {dots : List String} (hp : p.steps = steps ++ name :: dots)
    (hdots : ∀ step ∈ dots, step = ".") (h : t.follow here p = .ok place) :
    ∃ directory, t.walk (p.startFrom here) steps = .ok directory ∧
      t.node? directory = some .directory ∧ place = stepFrom directory name := by
  obtain ⟨-, hwalk⟩ := follow_eq_ok_iff.mp h
  rw [hp, walk_append] at hwalk
  obtain ⟨directory, hsteps, hwalk⟩ := bind_eq_ok_iff.mp hwalk
  obtain ⟨hnode, hlast⟩ := walk_cons_eq_ok hwalk
  exact ⟨directory, hsteps, hnode, walk_dots hdots hlast⟩

lemma startFrom_of_neighbours (h : p.Neighbours q steps name other) :
    q.startFrom here = p.startFrom here := by
  rw [Path.startFrom, Path.startFrom, h.absolute]

/-- Neighbours never lead to the same place. -/
lemma place_ne_of_neighbours {place' : Place} (h : p.Neighbours q steps name other)
    (hp : t.follow here p = .ok place) (hq : t.follow here q = .ok place') : place' ≠ place := by
  obtain ⟨dots, hdots, hfirst⟩ := h.first
  obtain ⟨dots', hdots', hsecond⟩ := h.second
  obtain ⟨directory, hwalk, -, rfl⟩ := follow_name hfirst hdots hp
  obtain ⟨directory', hwalk', -, rfl⟩ := follow_name hsecond hdots' hq
  rw [startFrom_of_neighbours h, hwalk] at hwalk'
  cases hwalk'
  exact stepFrom_ne h.name_ne_dot h.name_ne_parent h.other_ne directory

lemma walk_congr (h : ∀ place, t'.node? place = t.node? place) (here : Place)
    (steps : List String) : t'.walk here steps = t.walk here steps := by
  induction steps generalizing here with
  | nil => rfl
  | cons step steps ih => rw [walk, walk, h, ih, ih, ih]

lemma walk_dots_congr {here : Place} {dots : List String} (hdots : ∀ step ∈ dots, step = ".")
    (h : t'.node? here = t.node? here) : t'.walk here dots = t.walk here dots := by
  induction dots with
  | nil => rfl
  | cons step dots ih =>
    rw [List.forall_mem_cons] at hdots
    rw [walk, walk, h, if_pos hdots.1, if_pos hdots.1, ih hdots.2]

lemma walk_name_congr {here : Place} {dots : List String} (hdot : name ≠ ".") (hup : name ≠ "..")
    (hdots : ∀ step ∈ dots, step = ".") (hhere : t'.node? here = t.node? here)
    (hname : t'.node? (stepFrom here name) = t.node? (stepFrom here name)) :
    t'.walk here (name :: dots) = t.walk here (name :: dots) := by
  rw [stepFrom, if_neg hdot, if_neg hup] at hname
  rw [walk, walk, hhere, if_neg hdot, if_neg hup, if_neg hdot, if_neg hup,
    walk_dots_congr hdots hname]

lemma read_congr (hfollow : t'.follow here p = t.follow here p)
    (hnode : ∀ place, t.follow here p = .ok place → t'.node? place = t.node? place) :
    t'.read here p = t.read here p := by
  have hfind : t'.find here p = t.find here p := by
    rw [find, find, hfollow]
    cases hplace : t.follow here p with
    | error cause => rfl
    | ok place => simp only [bind, Except.bind, hnode place hplace]
  rw [read, read, hfind]

/-- What a path gives does not hang on the file that a neighbour leads to. -/
lemma ChangedOnly.read_neighbour (h : p.Neighbours q steps name other)
    (hchanged : ChangedOnly (LedTo t here [q]) t t') : t'.read here p = t.read here p := by
  obtain ⟨dots, hdots, hfirst⟩ := h.first
  obtain ⟨dots', hdots', hsecond⟩ := h.second
  cases hq : t.follow here q with
  | error cause =>
    have hsame : ∀ place, t'.node? place = t.node? place :=
      fun place => hchanged.elsewhere place (by simp [LedTo, hq])
    refine read_congr ?_ fun place _ => hsame place
    rw [follow, follow, walk_congr hsame]
  | ok place =>
    obtain ⟨directory, hwalk, hnode, rfl⟩ := follow_name hsecond hdots' hq
    rw [startFrom_of_neighbours h] at hwalk
    have hsame : t'.node? (stepFrom directory name) = t.node? (stepFrom directory name) := by
      refine hchanged.elsewhere _ ?_
      simpa [LedTo, hq] using stepFrom_ne h.name_ne_dot h.name_ne_parent h.other_ne directory
    -- the directory that both stand in is still there, and so is what stands at the other name
    have hnode' : t'.node? directory = some .directory :=
      (hchanged.directories directory).mpr hnode
    have hlast := walk_name_congr h.name_ne_dot h.name_ne_parent hdots
      (hnode'.trans hnode.symm) hsame
    refine read_congr ?_ fun place hplace => ?_
    · rw [follow, follow, hfirst, walk_append, walk_append, hwalk,
        hchanged.directories.walk_eq_ok hwalk]
      exact congrArg (p.check >>= fun _ => ·) hlast
    · obtain ⟨directory', hwalk', -, rfl⟩ := follow_name hfirst hdots hplace
      rw [hwalk] at hwalk'
      cases hwalk'
      exact hsame

end Neighbours

end ResourceBuild.Files.Tree
