import ResourceBuild.Metadata.Store
import ResourceBuild.Proofs.Files.System
import ResourceBuild.Proofs.Files.Trial

/-!
# Replacing the metadata file

The metadata file is replaced in one step. On a disk where any operation may fail half-way, every
state of the file is the old one or the new one, and a failure leaves the old one.
-/

namespace ResourceBuild.Metadata

open Files Outcome
open Files.Trial (Passes attempt_cases attempt_atomic passes_through)
open Files.Tree (ChangedOnly LedTo)

/-! ### Reading a document -/

/-- The document in the bytes of a file, if it could be read. -/
def documentIn (p : Path) (bytes : Except Cause ByteArray) : Except Failure Metadata :=
  match FileSystem.textIn bytes with
  | .error cause => .error (.file ⟨.readMetadata, p, cause⟩)
  | .ok s => (parse s).mapError Failure.invalid

lemma documentIn_toUTF8 (p : Path) (s : String) :
    documentIn p (.ok s.toUTF8) = (parse s).mapError Failure.invalid := by
  rw [documentIn, FileSystem.textIn_eq_ok_iff.mpr rfl]

/-- A document that could be read was parsed from the text in the file. -/
lemma parse_of_documentIn {p : Path} {bytes : Except Cause ByteArray} {d : Metadata}
    (h : documentIn p bytes = .ok d) : ∃ s, bytes = .ok s.toUTF8 ∧ parse s = .ok d := by
  unfold documentIn at h
  split at h
  · cases h
  · rename_i s hs
    refine ⟨s, FileSystem.textIn_eq_ok_iff.mp hs, ?_⟩
    cases hparse : parse s with
    | error reason => simp [hparse, Except.mapError] at h
    | ok e => simpa [hparse, Except.mapError] using h

/-- The document that is loaded is the one in what the file system gives. -/
lemma load_of_read {σ : Type} [FileSystem (StateM σ)] {p : Path} {d d' : σ}
    {bytes : Except Cause ByteArray} (h : FileSystem.read (m := StateM σ) p d = (bytes, d')) :
    load (m := StateM σ) p d = (documentIn p bytes, d') := by
  refine (bind_run (FileSystem.readText_of_read h)).trans ?_
  rw [documentIn]
  cases FileSystem.textIn bytes <;> rfl

/-! ### Replacing the file -/

/-- The path of the temporary file is a neighbour of a path with a file name. -/
lemma neighbours_temporaryPath {p : Path} {name : String} (h : p.fileName? = some name) :
    ∃ steps other, p.Neighbours (temporaryPath p) steps name other :=
  Files.Path.neighbours_withExtension h (by decide) (by decide)

section Replace

variable {here : Place} {temporary p : Path} {steps : List String} {name other : String}
  {t t' : Tree} {d : Trial}

/-- Whether a tree holds a draft at most: the temporary file was changed, if anything. -/
def Draft (t : Tree) (here : Place) (temporary : Path) : Tree → Prop :=
  ChangedOnly (LedTo t here [temporary]) t

/-- Whether a tree is one in which a text has taken the place of a file. -/
structure Replaced (t : Tree) (here : Place) (temporary p : Path) (s : String) (t' : Tree) :
    Prop where
  changed : ChangedOnly (LedTo t here [temporary, p]) t t'
  new : t'.read here p = .ok s.toUTF8
  gone : t'.read here temporary = .error .notFound

/-- Parts of a text are only ever written to the temporary file. -/
lemma draft_of_mem_partly (h : Draft t here temporary t') {s : String} :
    ∀ t'' ∈ t'.partly here temporary s, Draft t here temporary t'' := by
  intro t'' ht''
  obtain ⟨place, content, hplace, rfl⟩ := Tree.mem_partly ht''
  exact h.put List.mem_cons_self hplace content none

/-- A draft that is moved to its path has taken the place of the file. -/
lemma replaced_of_rename (hneighbours : p.Neighbours temporary steps name other) {source : Place}
    {s : String} {t'' : Tree} (h : Draft t here temporary t')
    (hholds : t'.Holds here temporary source s.toUTF8 none)
    (hrename : t'.rename here temporary p = .ok t'') : Replaced t here temporary p s t'' := by
  obtain ⟨goal, hgoal, rfl⟩ := hholds.rename_eq_ok_iff.mp hrename
  have hdraft : ChangedOnly (LedTo t here [temporary, p]) t t' :=
    h.mono fun place hplace => by simpa [LedTo] using Or.inl hplace
  obtain ⟨hchanged, hmoved⟩ := hdraft.rename List.mem_cons_self
    (List.mem_cons_of_mem _ List.mem_cons_self) hholds hgoal
  refine ⟨hchanged, Tree.read_eq_ok_iff.mpr ⟨goal, none, hmoved⟩, ?_⟩
  have hfollow : ((t'.erase source).put goal (.file s.toUTF8 none)).follow here temporary =
      .ok source :=
    (hdraft.directories.symm.trans hchanged.directories).follow_eq_ok_iff.mpr hholds.follow
  have hne : source ≠ goal := Tree.place_ne_of_neighbours hneighbours hgoal.follow hholds.follow
  refine Tree.read_missing hfollow ?_
  rw [Tree.node?_put_of_ne hne,
    Tree.node?_erase_self (Tree.ne_nil_of_not_directory hholds.writable.free)]

/-- The text is drafted until it takes the place of the file, or something fails. -/
lemma replace_cases (hneighbours : p.Neighbours temporary steps name other) (s : String)
    (d : Trial) :
    (∃ fault d', replace (m := StateM Trial) temporary p s d = (.error fault, d') ∧
      Passes (Draft d.tree d.here temporary) d d') ∨
    ∃ d₁ d', replace (m := StateM Trial) temporary p s d = (.ok (), d') ∧
      Passes (Draft d.tree d.here temporary) d d₁ ∧
      Passes (Replaced d.tree d.here temporary p s) d₁ d' ∧
      Replaced d.tree d.here temporary p s d'.tree := by
  have hstart : Draft d.tree d.here temporary d.tree := ChangedOnly.refl _ _
  -- a step that fails on its way leaves a draft, and so does one that goes all the way
  obtain ⟨cause, d₁, hmade, hpast⟩ | ⟨d₁, houtcome, hmade, hpast⟩ :=
    attempt_cases (.create temporary) d (draft_of_mem_partly hstart)
  · exact Or.inl ⟨_, d₁, bind_run hmade, hpast⟩
  obtain ⟨place, hplace, htree⟩ := Tree.create_eq_ok_iff.mp houtcome
  have hdraft : Draft d.tree d.here temporary d₁.tree := by
    rw [htree]
    exact hstart.put List.mem_cons_self hplace _ _
  have hcreated := hpast hdraft
  -- all trees up to here are drafts, and the second step goes on from the last of them
  obtain ⟨cause, d₂, hwritten, hpast⟩ | ⟨d₂, houtcome, hwritten, hpast⟩ :=
    attempt_cases (.fill temporary s) d₁ (hcreated.here_eq ▸ draft_of_mem_partly hdraft)
  · refine Or.inl ⟨_, d₂, (bind_run hmade).trans (bind_run hwritten), hcreated.trans ?_⟩
    rwa [hcreated.here_eq] at hpast
  obtain ⟨place, hplace, htree⟩ := Tree.fill_eq_ok_iff.mp houtcome
  rw [hcreated.here_eq] at hplace hpast
  have hholds : d₂.tree.Holds d.here temporary place s.toUTF8 none := by
    rw [htree]
    exact hplace.holds_put _ _
  have hfull : Draft d.tree d.here temporary d₂.tree := by
    rw [htree]
    exact hdraft.put List.mem_cons_self hplace _ _
  have hfilled := hcreated.trans (hpast hfull)
  -- moving is one step: before it there is a draft, behind it the text has taken its place
  obtain ⟨cause, hmoved, -⟩ | ⟨last, houtcome, hmoved⟩ :=
    attempt_atomic (.rename temporary p) d₂ rfl
  · exact Or.inl ⟨_, d₂,
      (bind_run hmade).trans ((bind_run hwritten).trans (bind_run hmoved)), hfilled⟩
  · rw [hfilled.here_eq] at houtcome
    have hreplaced := replaced_of_rename hneighbours hfull hholds houtcome
    refine Or.inr ⟨d₂, _,
      (bind_run hmade).trans ((bind_run hwritten).trans (bind_run hmoved)), hfilled,
      passes_through hreplaced, hreplaced⟩

/-- Clearing the temporary file leaves none, unless the disk refuses that. -/
lemma clear_cases (h : Draft t d.here temporary d.tree) :
    ∃ d', clear (m := StateM Trial) temporary d = ((), d') ∧
      Passes (Draft t d.here temporary) d d' ∧
      (d.refusals (.remove temporary) = none →
        ∀ bytes, d'.tree.read d.here temporary ≠ .ok bytes) := by
  cases hfind : d.tree.find d.here temporary with
  | error cause =>
    have hthere : FileSystem.isThere (m := StateM Trial) temporary d = (false, d) :=
      congrArg (fun found => (Option.isSome (Except.toOption found), d)) hfind
    refine ⟨d, bind_run hthere, Passes.refl _ d, fun _ bytes hread => ?_⟩
    rw [Tree.read, hfind] at hread
    cases hread
  | ok found =>
    have hthere : FileSystem.isThere (m := StateM Trial) temporary d = (true, d) :=
      congrArg (fun found => (Option.isSome (Except.toOption found), d)) hfind
    obtain ⟨cause, hrun, houtcome⟩ | ⟨last, houtcome, hrun⟩ :=
      attempt_atomic (.remove temporary) d rfl
    · refine ⟨d, (bind_run hthere).trans (discard_run hrun), Passes.refl _ d,
        fun hrefusal bytes hread => ?_⟩
      -- a file that can be read can be removed, so the disk must have refused
      obtain ⟨place, program, hholds⟩ := Tree.read_eq_ok_iff.mp hread
      have hremove : d.tree.remove d.here temporary = .ok (d.tree.erase place) :=
        Tree.remove_eq_ok_iff.mpr ⟨place, bytes, program, hholds, rfl⟩
      cases hremove.symm.trans (houtcome hrefusal)
    · obtain ⟨place, content, program, hholds, rfl⟩ := Tree.remove_eq_ok_iff.mp houtcome
      refine ⟨_, (bind_run hthere).trans (discard_run hrun),
        passes_through (h.erase List.mem_cons_self hholds.writable), fun _ bytes hread => ?_⟩
      cases hread.symm.trans hholds.writable.read_erase

/-- A document is saved, or nothing but the temporary file was touched. -/
lemma save_cases (hneighbours : p.Neighbours (temporaryPath p) steps name other) (e : Metadata)
    (width : Nat) (d : Trial) :
    (∃ failure d', save (m := StateM Trial) e p width d = (.error failure, d') ∧
      Passes (Draft d.tree d.here (temporaryPath p)) d d' ∧
      (d.refusals (.remove (temporaryPath p)) = none →
        ∀ bytes, d'.tree.read d.here (temporaryPath p) ≠ .ok bytes)) ∨
    ∃ d₁ d', save (m := StateM Trial) e p width d = (.ok (), d') ∧
      Passes (Draft d.tree d.here (temporaryPath p)) d d₁ ∧
      Passes (Replaced d.tree d.here (temporaryPath p) p (e.render width)) d₁ d' ∧
      Replaced d.tree d.here (temporaryPath p) p (e.render width) d'.tree := by
  obtain ⟨fault, d₁, hreplace, hpast⟩ | ⟨d₁, d', hreplace, hpast⟩ :=
    replace_cases hneighbours (e.render width) d
  · have hdraft := hpast.tree (ChangedOnly.refl _ _)
    rw [← hpast.here_eq] at hdraft
    obtain ⟨d', hclear, hcleared, hgone⟩ := clear_cases hdraft
    rw [hpast.here_eq] at hcleared hgone
    rw [hpast.refusals_eq] at hgone
    exact Or.inl ⟨_, d', (bind_run hreplace).trans (bind_run hclear), hpast.trans hcleared, hgone⟩
  · exact Or.inr ⟨d₁, d', bind_run hreplace, hpast⟩

/-- Reading leaves a disk as it is. -/
lemma read_run (p : Path) (d : Trial) :
    ∃ bytes, FileSystem.read (m := StateM Trial) p d = (bytes, d) := by
  cases hcause : d.unreadable p with
  | some cause => exact ⟨.error cause, by simp only [FileSystem.read, hcause]⟩
  | none => exact ⟨d.tree.read d.here p, by simp only [FileSystem.read, hcause]⟩

/-- Without a document that can be read there is nothing to bring up to date. -/
lemma sync_of_load_error {failure : Failure} (version : Option String) (width : Nat)
    (h : (load (m := StateM Trial) p d).1 = .error failure) :
    sync (m := StateM Trial) p version width d = (.error failure, d) := by
  obtain ⟨bytes, hread⟩ := read_run p d
  have hload : load (m := StateM Trial) p d = (.error failure, d) := by
    rw [load_of_read hread] at h ⊢
    exact congrArg (·, d) h
  exact bind_run hload

end Replace

/--
However far a run of `save` gets on a disk that may refuse any operation half-way, the file holds
its old content or the complete new text at every point, and no file but this one and the temporary
one is touched. A failure leaves the old content, and no temporary file unless removing it is
refused; otherwise the text has taken its place and the temporary file is gone. A `sync` that cannot
read the document does nothing.
-/
theorem save_atomic {p : Path} {name : String} (hname : p.fileName? = some name) (e : Metadata)
    (width : Nat) (d : Trial) :
    let temporary := temporaryPath p
    let text := (e.render width).toUTF8
    let run := save (m := StateM Trial) e p width d
    (temporary ≠ p ∧ ∀ (t : Tree) (here place : Place),
      t.follow here p = .ok place → t.follow here temporary ≠ .ok place) ∧
    Passes (fun t => ChangedOnly (LedTo d.tree d.here [temporary, p]) d.tree t ∧
      (t.read d.here p = d.tree.read d.here p ∨ t.read d.here p = .ok text)) d run.2 ∧
    (∀ failure, run.1 = .error failure →
      run.2.tree.read d.here p = d.tree.read d.here p ∧
      (d.refusals (.remove temporary) = none →
        ∀ bytes, run.2.tree.read d.here temporary ≠ .ok bytes)) ∧
    (run.1 = .ok () →
      run.2.tree.read d.here p = .ok text ∧
      run.2.tree.read d.here temporary = .error .notFound) ∧
    ∀ version failure, (load (m := StateM Trial) p d).1 = .error failure →
      sync (m := StateM Trial) p version width d = (.error failure, d) := by
  intro temporary text run
  obtain ⟨steps, other, hneighbours⟩ := neighbours_temporaryPath hname
  -- a draft does not change the file, which stands beside the temporary one
  have hdraft {t : Tree} (h : Draft d.tree d.here temporary t) :
      ChangedOnly (LedTo d.tree d.here [temporary, p]) d.tree t ∧
        (t.read d.here p = d.tree.read d.here p ∨ t.read d.here p = .ok text) :=
    ⟨h.mono fun place hplace => by simpa [LedTo] using Or.inl hplace,
      Or.inl (h.read_neighbour hneighbours)⟩
  refine ⟨⟨hneighbours.ne, fun t here place hp htemporary =>
    Tree.place_ne_of_neighbours hneighbours hp htemporary rfl⟩, ?_⟩
  obtain ⟨failure, d', hrun, hpast, hgone⟩ | ⟨d₁, d', hrun, hpast, hmoved, hreplaced⟩ :=
    save_cases hneighbours e width d
  · have hkept := (hpast.tree (ChangedOnly.refl _ _)).read_neighbour hneighbours
    rw [show run = (.error failure, d') from hrun]
    exact ⟨hpast.mono fun t ht => hdraft ht, fun _ _ => ⟨hkept, hgone⟩, (by cases ·),
      fun version _ => sync_of_load_error version width⟩
  · rw [show run = (.ok (), d') from hrun]
    exact ⟨(hpast.mono fun t ht => hdraft ht).trans
        (hmoved.mono fun t ht => ⟨ht.changed, Or.inr ht.new⟩), fun _ => (by cases ·),
      fun _ => ⟨hreplaced.new, hreplaced.gone⟩, fun version _ => sync_of_load_error version width⟩

/-- The disk is full after two bytes of the text. -/
theorem save_atomic_disk_full :
    let p : Path := ⟨"pack/package.json"⟩
    let d : Trial := {
      tree := ⟨[(["pack"], .directory), (["pack", "package.json"], .file "old".toUTF8 none)]⟩
      refusals := fun o =>
        match o with
        | .fill _ _ => some ⟨.other "No space left on device (os error 28)", 3⟩
        | _ => none }
    let run := save (m := StateM Trial) ⟨[("version", .text "2")]⟩ p 2 d
    p.fileName? = some "package.json" ∧ run.1.isOk = false ∧
      run.2.past.map (fun t => ((t.read d.here (temporaryPath p)).toOption).map ByteArray.size) =
        [some 0, some 0, some 0, some 1, some 2, none] ∧
      run.2.tree.read d.here p = .ok "old".toUTF8 ∧
      ∀ bytes, run.2.tree.read d.here (temporaryPath p) ≠ .ok bytes := by
  intro p d run
  have hname : p.fileName? = some "package.json" := by decide +kernel
  have hrun : run.1 = .error (.file ⟨.writeMetadata, ⟨"pack/package.json.tmp"⟩,
      .other "No space left on device (os error 28)"⟩) := by decide +kernel
  obtain ⟨-, -, hfailed, -⟩ := save_atomic hname ⟨[("version", .text "2")]⟩ 2 d
  obtain ⟨hkept, hgone⟩ := hfailed _ hrun
  have hold : d.tree.read d.here p = .ok "old".toUTF8 := by decide +kernel
  have hpast : run.2.past.map
      (fun t => ((t.read d.here (temporaryPath p)).toOption).map ByteArray.size) =
        [some 0, some 0, some 0, some 1, some 2, none] := by decide +kernel
  subst run
  refine ⟨hname, ?_, hpast, hkept.trans hold, hgone rfl⟩
  rw [hrun]
  rfl

end ResourceBuild.Metadata
