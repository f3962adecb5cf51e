import ResourceBuild.Proofs.Host.Machine
import ResourceBuild.Proofs.Metadata.Replacement
import ResourceBuild.Proofs.Metadata.RoundTrip
import ResourceBuild.Proofs.Metadata.Version

/-!
# Bringing the metadata up to date

What the metadata file holds after a `sync` is the document that it returns, and a second one finds
nothing left to do.
-/

namespace ResourceBuild

open Files Outcome
open Files.Tree (ChangedOnly LedTo)

namespace Metadata

/-- A document that has a version is not changed by setting it again. -/
lemma withVersion_withVersion (version : Option String) (d : Metadata) :
    (d.withVersion version).withVersion version = d.withVersion version := by
  cases version with
  | none => rfl
  | some v => exact setVersion_setVersion v v d

lemma Readable.withVersion {d : Metadata} (h : Readable d) (version : Option String) :
    Readable (d.withVersion version) := by
  cases version with
  | none => exact h
  | some v => exact h.setVersion v

section Machine

variable {w w' : Machine} {t t' : Tree} {here : Place} {temporary p : Path} {d d' : Metadata}
  {version : Option String} {width : Nat}

/-- Whether a file can be replaced by way of a temporary one. -/
structure Replaceable (t : Tree) (here : Place) (temporary p : Path) : Prop where
  source : ∃ place, t.Writable here temporary place
  goal : ∃ place, t.Writable here p place

lemma Replaceable.congr (h : Replaceable t here temporary p) (hsame : t.SameDirectories t') :
    Replaceable t' here temporary p where
  source := h.source.imp fun _ => hsame.writable
  goal := h.goal.imp fun _ => hsame.writable

/-- A file is replaced exactly when it can be. -/
lemma replace_run (temporary p : Path) (s : String) (w : Machine) :
    (¬Replaceable w.tree w.here temporary p ∧
      ∃ fault w', replace (m := StateM Machine) temporary p s w = (.error fault, w')) ∨
    Replaceable w.tree w.here temporary p ∧
      ∃ t, replace (m := StateM Machine) temporary p s w = (.ok (), { w with tree := t }) ∧
        ChangedOnly (LedTo w.tree w.here [temporary, p]) w.tree t ∧
        t.read w.here p = .ok s.toUTF8 := by
  have hself : temporary ∈ [temporary, p] := List.mem_cons_self
  cases hcreate : w.tree.create w.here temporary with
  | error cause =>
    -- without a draft nothing is done; a place for the draft is what is missing then
    refine Or.inl ⟨fun hready => ?_, _, w, bind_run (Machine.change_of_error hcreate)⟩
    obtain ⟨place, hplace⟩ := hready.source
    cases hcreate.symm.trans (Tree.create_eq_ok_iff.mpr ⟨place, hplace, rfl⟩)
  | ok t₁ =>
    obtain ⟨source, hsource, rfl⟩ := Tree.create_eq_ok_iff.mp hcreate
    have hmade := (ChangedOnly.refl _ w.tree).put hself hsource .empty none
    have hsource₁ := hmade.directories.writable hsource
    have hfill := hsource₁.fill_eq_ok s
    have hwritten := hmade.put hself hsource₁ s.toUTF8 none
    have hholds := hsource₁.holds_put s.toUTF8 none
    have hcreated : FileSystem.create (m := StateM Machine) temporary w = (.ok (), _) :=
      Machine.change_of_ok hcreate
    -- from here on it only matters what the tree holds and that its directories are the same
    generalize w.tree.put source (.file .empty none) = t₁ at *
    generalize t₁.put source (.file s.toUTF8 none) = t₂ at *
    have hfilled : FileSystem.fill (m := StateM Machine) temporary s { w with tree := t₁ } =
        (.ok (), { w with tree := t₂ }) := Machine.change_of_ok hfill
    cases hrename : t₂.rename w.here temporary p with
    | error cause =>
      have hfailed : FileSystem.rename (m := StateM Machine) temporary p { w with tree := t₂ } =
          (.error cause, { w with tree := t₂ }) := Machine.change_of_error hrename
      -- the draft is there, so it is the place of the file itself that cannot be written
      refine Or.inl ⟨fun hready => ?_, _, _,
        (bind_run hcreated).trans ((bind_run hfilled).trans (bind_run hfailed))⟩
      obtain ⟨goal, hgoal⟩ := hready.goal
      cases hrename.symm.trans (hholds.rename_eq_ok_iff.mpr
        ⟨goal, hwritten.directories.writable hgoal, rfl⟩)
    | ok t₃ =>
      have hmoved : FileSystem.rename (m := StateM Machine) temporary p { w with tree := t₂ } =
          (.ok (), { w with tree := t₃ }) := Machine.change_of_ok hrename
      obtain ⟨goal, hgoal, rfl⟩ := hholds.rename_eq_ok_iff.mp hrename
      obtain ⟨hchanged, hread⟩ :=
        hwritten.rename hself (List.mem_cons_of_mem _ List.mem_cons_self) hholds hgoal
      exact Or.inr ⟨⟨⟨source, hsource⟩, goal, hwritten.directories.symm.writable hgoal⟩, _,
        (bind_run hcreated).trans ((bind_run hfilled).trans (bind_run hmoved)), hchanged,
        Tree.read_eq_ok_iff.mpr ⟨goal, none, hread⟩⟩

/-- A machine gives what is in the file, and stays as it is. -/
lemma load_run (p : Path) (w : Machine) :
    load (m := StateM Machine) p w = (documentIn p (w.tree.read w.here p), w) :=
  load_of_read rfl

/-- A document that can be read is brought up to date if its file can be replaced. -/
lemma sync_of_load (hload : (load (m := StateM Machine) p w).1 = .ok d)
    (hready : Replaceable w.tree w.here (temporaryPath p) p) (version : Option String)
    (width : Nat) :
    ∃ t, sync (m := StateM Machine) p version width w =
        (.ok (d.withVersion version), { w with tree := t }) ∧
      ChangedOnly (LedTo w.tree w.here [temporaryPath p, p]) w.tree t ∧
      t.read w.here p = .ok ((d.withVersion version).render width).toUTF8 := by
  have hload : load (m := StateM Machine) p w = (.ok d, w) := by
    rw [load_run] at hload ⊢
    exact congrArg (·, w) hload
  obtain ⟨hnot, -⟩ | ⟨-, t, hreplace, hchanged⟩ :=
    replace_run (temporaryPath p) p ((d.withVersion version).render width) w
  · exact absurd hready hnot
  · have hsave : save (m := StateM Machine) (d.withVersion version) p width w =
        (.ok (), { w with tree := t }) := bind_run hreplace
    exact ⟨t, (bind_run hload).trans (bind_run hsave), hchanged⟩

/-- What was brought up to date could be read, and its file could be replaced. -/
lemma replaceable_of_sync
    (h : sync (m := StateM Machine) p version width w = (.ok d', w')) :
    Replaceable w.tree w.here (temporaryPath p) p ∧
      ∃ d, (load (m := StateM Machine) p w).1 = .ok d := by
  cases hload : documentIn p (w.tree.read w.here p) with
  | error failure =>
    have hrun : load (m := StateM Machine) p w = (.error failure, w) :=
      (load_run p w).trans (congrArg (·, w) hload)
    cases (bind_run hrun).symm.trans h
  | ok d =>
    have hrun : load (m := StateM Machine) p w = (.ok d, w) :=
      (load_run p w).trans (congrArg (·, w) hload)
    refine ⟨?_, d, congrArg Prod.fst hrun⟩
    obtain ⟨-, fault, w₁, hreplace⟩ | ⟨hready, -⟩ :=
      replace_run (temporaryPath p) p ((d.withVersion version).render width) w
    · have hsave : save (m := StateM Machine) (d.withVersion version) p width w =
          (.error (.file fault), (clear (m := StateM Machine) (temporaryPath p) w₁).2) :=
        bind_run hreplace
      cases ((bind_run hrun).trans (bind_run hsave)).symm.trans h
    · exact hready

/-- What was brought up to date is the document that was in the file, with the version, and it is in
the file now. -/
lemma sync_eq_ok (h : sync (m := StateM Machine) p version width w = (.ok d', w')) :
    ∃ d, documentIn p (w.tree.read w.here p) = .ok d ∧ d' = d.withVersion version ∧
      w'.tree.read w'.here p = .ok (d'.render width).toUTF8 := by
  obtain ⟨hready, d, hload⟩ := replaceable_of_sync h
  obtain ⟨t, hrun, -, hread⟩ := sync_of_load hload hready version width
  cases hrun.symm.trans h
  rw [load_run] at hload
  exact ⟨d, hload, rfl, hread⟩

end Machine

/--
If `sync` succeeds on a file that holds the document `d`, it returns `d` with the version replaced
if there is one to replace it: all other members stay as and where they are. The file holds the
document that was returned, and a second `sync` returns it once more and leaves the file as it is.
-/
theorem sync_idempotent {w w' : Machine} {p : Path} {d d' : Metadata} {version : Option String}
    {width : Nat} (hload : (load (m := StateM Machine) p w).1 = .ok d)
    (hsync : sync (m := StateM Machine) p version width w = (.ok d', w')) :
    (version = none → d' = d) ∧
    (∀ v, version = some v → d'.version? = some v ∧
      (∀ key, key ≠ versionKey → Members.find? key d'.members = Members.find? key d.members) ∧
      d'.members.keys =
        if versionKey ∈ d.members.keys then d.members.keys else d.members.keys ++ [versionKey]) ∧
    w'.tree.read w'.here p = .ok (d'.render width).toUTF8 ∧
    load (m := StateM Machine) p w' = (.ok d', w') ∧
    ∃ w'', sync (m := StateM Machine) p version width w' = (.ok d', w'') ∧
      w''.tree.read w''.here p = w'.tree.read w'.here p := by
  obtain ⟨hready, -⟩ := replaceable_of_sync hsync
  obtain ⟨t, hrun, hchanged, hread⟩ := sync_of_load hload hready version width
  cases hrun.symm.trans hsync
  -- a document that was read is one that reads back, and a version does not change that
  have hreadable : Readable (d.withVersion version) := by
    rw [load_run] at hload
    obtain ⟨s, -, hparse⟩ := parse_of_documentIn hload
    exact (Readable.of_parse hparse).withVersion version
  have hload' : load (m := StateM Machine) p { w with tree := t } =
      (.ok (d.withVersion version), { w with tree := t }) := by
    rw [load_run, hread, documentIn_toUTF8, hreadable.parse_render]
    rfl
  refine ⟨?_, ?_, hread, hload', ?_⟩
  · rintro rfl
    rfl
  · rintro v rfl
    refine ⟨?_, fun key hkey => Members.find?_insert_of_ne hkey _ _, Members.keys_insert _ _ _⟩
    rw [version?, withVersion, setVersion, Members.find?_insert_self]
    rfl
  · -- the first run has changed no directory, so the second one can replace the file as well
    obtain ⟨t', hrun', -, hread'⟩ := sync_of_load (congrArg Prod.fst hload')
      (hready.congr hchanged.directories) version width
    rw [withVersion_withVersion] at hrun' hread'
    exact ⟨_, hrun', hread'.trans hread.symm⟩

/-- The version is replaced where it is, and the number behind it is printed as it was. -/
theorem sync_idempotent_replaced :
    let p : Path := ⟨"package.json"⟩
    let w : Machine := { tree := ⟨[(["package.json"], .file
      "\x7b\"name\": \"a\", \"version\": \"1\", \"size\": 1.5\x7d".toUTF8 none)]⟩ }
    ∃ d d' w', (load (m := StateM Machine) p w).1 = .ok d ∧
      sync (m := StateM Machine) p (some "2") 0 w = (.ok d', w') ∧
      d'.version? = some "2" ∧ d'.members.keys = ["name", "version", "size"] ∧
      w'.tree.read [] p = .ok (d'.render 0).toUTF8 ∧
      ∃ w'', sync (m := StateM Machine) p (some "2") 0 w' = (.ok d', w'') ∧
        w''.tree.read w''.here p = w'.tree.read w'.here p := by
  intro p w
  have hkeys : (load (m := StateM Machine) p w).1.toOption.map (·.members.keys) =
      some ["name", "version", "size"] := by decide +kernel
  have hsynced : (sync (m := StateM Machine) p (some "2") 0 w).1.isOk = true ∧
      (sync (m := StateM Machine) p (some "2") 0 w).2.here = [] := by decide +kernel
  cases hload : (load (m := StateM Machine) p w).1 with
  | error failure => simp [hload, Except.toOption] at hkeys
  | ok d =>
    obtain ⟨hok, hhere⟩ := hsynced
    cases hsync : sync (m := StateM Machine) p (some "2") 0 w with
    | mk result w' =>
      rw [hsync] at hok hhere
      cases result with
      | error failure => cases hok
      | ok d' =>
        obtain ⟨-, hversion, hread, -, hagain⟩ := sync_idempotent hload hsync
        obtain ⟨hversion, -, hkeys'⟩ := hversion "2" rfl
        have hkeys : d.members.keys = ["name", "version", "size"] := by
          simpa [hload, Except.toOption] using hkeys
        rw [hkeys] at hkeys'
        exact ⟨d, d', w', rfl, rfl, hversion, hkeys', hhere ▸ hread, hagain⟩

end Metadata

end ResourceBuild
