import ResourceBuild.Proofs.Build.Stages
import ResourceBuild.Proofs.Json.Ending

/-!
# The manifest that is shown

`render` prints what a build writes. A build reads the metadata after it has told the log more than
`render` has by then. That makes no difference unless the log is the metadata file, and then the
build finds no document in it: the line that tells of a stage is not the end of one.
-/

namespace ResourceBuild

open Files Outcome
open Files.Tree (ChangedOnly LedTo)
open Machine (Touches Touched)

/-! ### Documents and lines of the log -/

/-- The text of a document holds an object. -/
lemma Metadata.json_of_parse {s : String} {d : Metadata} (h : parse s = .ok d) :
    Json.parse s = .ok (.object d.members) := by
  unfold parse at h
  split at h
  · rename_i v hv
    cases v with
    | object ms =>
      cases h
      exact hv
    | _ => cases h
  · cases h

/-- A document does not end with the line that tells that a stage begins. -/
lemma Metadata.toUTF8_ne_of_parse {s : String} {d : Metadata} (h : parse s = .ok d)
    (before : ByteArray) (staged : Log) (now : Time.Instant) (stage : Build.Stage) :
    s.toUTF8 ≠ before ++ (staged.line now ("START " ++ ("  " ++ stage.label))).toUTF8 := by
  obtain ⟨front, hfront⟩ : ∃ front, staged.line now ("START " ++ ("  " ++ stage.label)) =
      front ++ "]\n" := by
    refine ⟨"[" ++ Log.timeText now ++ "] [" ++ staged.stage.getD "fxpack" ++ "] " ++
      ("START " ++ ("  " ++ (stage.name ++ " [" ++ Text.decimal (Build.Stage.all.idxOf stage + 1) ++
        "/" ++ Text.decimal Build.Stage.all.length))), ?_⟩
    simp only [Log.line, Build.Stage.label, String.append_assoc]
    rfl
  rw [hfront]
  exact Json.toUTF8_ne_of_parse (json_of_parse h) before front

namespace Build

/-- The log tells a small step. -/
lemma step_cases (log : Log) (message : String) (w : Machine) :
    (∃ file place, log.file = some file ∧ w.tree.Writable w.here file place) ∨
      (log.step (m := StateM Machine) message w).2.tree = w.tree := by
  obtain ⟨w₀, htree, hhere, hstep⟩ : ∃ w₀ : Machine, w₀.tree = w.tree ∧ w₀.here = w.here ∧
      log.step (m := StateM Machine) message w =
        log.note (m := StateM Machine) ("STEP: " ++ message) w₀ := by
    unfold Log.step
    split
    · exact ⟨(Host.complainLine (m := StateM Machine) ("TRACE: " ++ message) w).2, rfl, rfl, rfl⟩
    · exact ⟨w, rfl, rfl, rfl⟩
  rw [hstep, ← htree, ← hhere]
  obtain ⟨file, place, -, -, hfile, hplace, -⟩ | ⟨-, hsame⟩ :=
    log.note_cases ("STEP: " ++ message) w₀
  · exact Or.inl ⟨file, place, hfile, hplace⟩
  · exact Or.inr hsame

/-- A document that a build reads after the log told of the build and of its first stage is the one
that was there before. -/
lemma documentIn_before_opened {p : Path} {d : Metadata} (log : Log) (message : String)
    (w : Machine)
    (hd : let staged := { log with stage := some Stage.metadata.name }
      let opened := (Stage.metadata.opened (m := StateM Machine) staged
        (log.step (m := StateM Machine) message w).2).2
      Metadata.documentIn p (opened.tree.read opened.here p) = .ok d) :
    Metadata.documentIn p (w.tree.read w.here p) = .ok d := by
  let staged := { log with stage := some Stage.metadata.name }
  have hstep := log.touches_step message w
  generalize hw₂ : (log.step (m := StateM Machine) message w).2 = w₂ at hd hstep
  have hbegun := staged.touches_note ("START " ++ ("  " ++ Stage.metadata.label)) w₂
  let begun := staged.note (m := StateM Machine) ("START " ++ ("  " ++ Stage.metadata.label)) w₂
  change Metadata.documentIn p (begun.2.tree.read begun.2.here p) = .ok d at hd
  rw [hbegun.here, hstep.here] at hd
  obtain ⟨file, q, before, program, hfile, hq, htree⟩ | ⟨hnot, hsame⟩ :=
    staged.note_cases ("START " ++ ("  " ++ Stage.metadata.label)) w₂
  · obtain ⟨s, hread, hparse⟩ := Metadata.parse_of_documentIn hd
    rw [htree] at hread
    obtain ⟨place, program', hholds⟩ := Tree.read_eq_ok_iff.mp hread
    -- the line that was written is not the end of a document, so it stands in another file
    have hne : place ≠ q := by
      rintro rfl
      have hnode := hholds.node
      rw [Tree.node?_put_self (Tree.ne_nil_of_not_directory hq.free), Option.some.injEq,
        Node.file.injEq] at hnode
      exact Metadata.toUTF8_ne_of_parse hparse before staged w₂.now .metadata hnode.1.symm
    rw [hstep.here] at hq
    have hholds₂ := (Tree.changedOnly_put hq.free _ _).symm.holds hne hholds
    have hfree : ¬LedTo w.tree w.here log.file.toList place := by
      rintro ⟨other, hother, hplace⟩
      have hfile : log.file = some file := hfile
      obtain rfl : other = file := by simpa [hfile] using hother
      have hfollow := hstep.files.directories.follow_eq_ok_iff.mpr hplace
      exact hne (Except.ok.inj (hfollow.symm.trans hq.follow))
    have hholds₁ := hstep.files.symm.holds hfree hholds₂
    rw [Tree.read_eq_ok_iff.mpr ⟨place, program', hholds₁⟩, Metadata.documentIn_toUTF8, hparse]
    rfl
  · obtain ⟨file, place, hfile, hplace⟩ | hsame' := step_cases log message w
    · rw [← hstep.here] at hplace
      exact absurd (hstep.files.directories.writable hplace) (hnot file place hfile)
    · rw [hsame, ← hw₂, hsame'] at hd
      exact hd

/-- The version of the environment only depends on the environment. -/
lemma environmentVersion_congr {w w' : Machine} (h : w'.environment = w.environment) (c : Config) :
    environmentVersion (m := StateM Machine) c w' =
      ((environmentVersion (m := StateM Machine) c w).1, w') := by
  unfold environmentVersion
  cases Config.versionKey? c.metadata.versionVariable with
  | none => rfl
  | some key =>
    change ((Machine.valueOf? key w'.environment).bind _, w') = _
    rw [h]
    rfl

/-- If a build completes its manifest, what it lists is the document that was there before the
build, with the version of the environment. -/
lemma document_of_mem_ran {o : Order} {bundler : Bundle.Bundler (StateM Machine)} {log : Log}
    {w : Machine} {r : Ran Machine} {made : Made} (hr : r ∈ o.ran bundler log w)
    (hstage : r.stage = .manifest) (hresult : r.result = .ok made) :
    let staged := { log with stage := some Stage.metadata.name }
    let opened := (Stage.metadata.opened (m := StateM Machine) staged w).2
    ∃ d, Metadata.documentIn o.config.metadataPath
        (opened.tree.read opened.here o.config.metadataPath) = .ok d ∧
      made.document = d.withVersion o.version := by
  intro staged opened
  rw [Order.ran, planned_eq, Order.course, List.mem_cons] at hr
  rcases hr with rfl | hr
  · cases hstage
  split at hr
  · rename_i first hfirst
    have hkept : made.document = first.document :=
      (course_fixed first _ document_kept).1 r hr made hresult
    have hwork : o.work bundler {} .metadata staged opened =
        (.ok first, (o.work bundler {} .metadata staged opened).2) := Prod.ext hfirst rfl
    obtain ⟨document, hsync, rfl⟩ := sync_of_work hwork
    obtain ⟨d, hd, hdocument, -⟩ := Metadata.sync_eq_ok hsync
    exact ⟨d, hd, hkept.trans hdocument⟩
  · cases hr

end Build

namespace CommandLine

variable {locales : Time.Locales} {options : Options} {log : Log} {w w₁ : Machine} {path : Path}
  {config : Config} {plan : Config.Plan}

/-- The stages that a build runs once its configuration is loaded. -/
def ran (locales : Time.Locales) (skipBundle : Bool) (options : Options) (log : Log) (w : Machine) :
    List (Build.Ran Machine) :=
  match loadValid (m := StateM Machine) locales options log w with
  | (.error _, _) => []
  | (.ok (path, config, plan), w₁) =>
    let w₂ := (log.step (m := StateM Machine) ("Building from " ++ path.text) w₁).2
    let ordered := Build.Order.ofConfig (m := StateM Machine) config plan skipBundle w₂
    ordered.1.ran (Bundle.runProgram config.bundle.program) log ordered.2

/-- What is shown is the manifest of the document in the file, with the version of the
environment. -/
lemma render_of_document {d : Metadata}
    (hload : loadValid (m := StateM Machine) locales options log w = (.ok (path, config, plan), w₁))
    (hd : Metadata.documentIn config.metadataPath (w₁.tree.read w₁.here config.metadataPath) =
      .ok d) :
    ∃ w₂, Touched log.file.toList w₁ w₂ ∧
      render (m := StateM Machine) locales options log w = (.ok (), { w₂ with
        output := w₂.output ++ Manifest.render
          (d.withVersion (Build.environmentVersion (m := StateM Machine) config w₁).1)
          plan.sections }) := by
  have hdocument : Metadata.load (m := StateM Machine) config.metadataPath w₁ = (.ok d, w₁) :=
    (Metadata.load_run _ w₁).trans (congrArg (·, w₁) hd)
  have hversion := Build.environmentVersion_congr (rfl : w₁.environment = w₁.environment) config
  cases hvalue : (Build.environmentVersion (m := StateM Machine) config w₁).1 with
  | none =>
    rw [hvalue] at hversion
    exact ⟨w₁, Touched.refl _ w₁,
      (bind_run hload).trans ((bind_run hdocument).trans (bind_run hversion))⟩
  | some v =>
    rw [hvalue] at hversion
    exact ⟨_, log.touches_debug ("Rendering with version override " ++ v) w₁,
      (bind_run hload).trans ((bind_run hdocument).trans (bind_run hversion))⟩

/-- What is shown touches no file but the log. -/
lemma render_files (locales : Time.Locales) (options : Options) (log : Log) (w : Machine) :
    ChangedOnly (LedTo w.tree w.here log.file.toList) w.tree
      (render (m := StateM Machine) locales options log w).2.tree := by
  cases hload : loadValid (m := StateM Machine) locales options log w with
  | mk loaded w₁ =>
    have htouched := touched_loadValid hload
    cases loaded with
    | error e =>
      rw [show render (m := StateM Machine) locales options log w = (.error (.build e), w₁) from
        bind_run hload]
      exact htouched.files
    | ok found =>
      obtain ⟨path, config, plan⟩ := found
      cases hd : Metadata.documentIn config.metadataPath
          (w₁.tree.read w₁.here config.metadataPath) with
      | error failure =>
        have hdocument : Metadata.load (m := StateM Machine) config.metadataPath w₁ =
          (.error failure, w₁) := (Metadata.load_run _ w₁).trans (congrArg (·, w₁) hd)
        rw [show render (m := StateM Machine) locales options log w =
          (.error (.build (.ofMetadata failure)), w₁) from
            (bind_run hload).trans (bind_run hdocument)]
        exact htouched.files
      | ok d =>
        obtain ⟨w₂, hrendered, hrun⟩ := render_of_document hload hd
        rw [hrun]
        exact (htouched.trans hrendered).files

/-- The stages of a build go by the configuration that was loaded and the version of the
environment. -/
lemma mem_ran {skipBundle : Bool} {r : Build.Ran Machine}
    (hr : r ∈ ran locales skipBundle options log w) :
    ∃ path config plan w₁,
      loadValid (m := StateM Machine) locales options log w = (.ok (path, config, plan), w₁) ∧
      r ∈ Build.Order.ran ⟨config, plan, plan.stamp,
          (Build.environmentVersion (m := StateM Machine) config w₁).1, skipBundle⟩
        (Bundle.runProgram config.bundle.program) log
        (log.step (m := StateM Machine) ("Building from " ++ path.text) w₁).2 := by
  unfold ran at hr
  split at hr
  · cases hr
  · rename_i path config plan w₁ hload
    refine ⟨path, config, plan, w₁, hload, ?_⟩
    have henvironment := (log.touches_step ("Building from " ++ path.text) w₁).environment
    generalize (log.step (m := StateM Machine) ("Building from " ++ path.text) w₁).2 = w₂
      at hr henvironment
    have hordered : Build.Order.ofConfig (m := StateM Machine) config plan skipBundle w₂ =
        (⟨config, plan, plan.stamp, (Build.environmentVersion (m := StateM Machine) config w₁).1,
          skipBundle⟩, w₂) := bind_run (Build.environmentVersion_congr henvironment config)
    simpa only [hordered] using hr

/-- A build that succeeds has completed its manifest. -/
lemma manifest_of_build {skipBundle : Bool}
    (h : (build (m := StateM Machine) locales skipBundle options log w).1 = .ok ()) :
    ∃ r ∈ ran locales skipBundle options log w, r.stage = .manifest ∧ r.result.isOk = true := by
  cases hload : loadValid (m := StateM Machine) locales options log w with
  | mk loaded w₁ =>
    cases loaded with
    | error e =>
      have hbuild : build (m := StateM Machine) locales skipBundle options log w =
        (.error (.build e), w₁) := bind_run hload
      rw [hbuild] at h
      cases h
    | ok found =>
      obtain ⟨path, config, plan⟩ := found
      let w₂ := (log.step (m := StateM Machine) ("Building from " ++ path.text) w₁).2
      let ordered := Build.Order.ofConfig (m := StateM Machine) config plan skipBundle w₂
      have hstops := Build.stopsAtFirstFailure ordered.1
        (Bundle.runProgram config.bundle.program) log ordered.2
      have hran : ran locales skipBundle options log w =
          ordered.1.ran (Bundle.runProgram config.bundle.program) log ordered.2 := by
        rw [ran, hload]
      have hok : ((ordered.1.carryOut (m := StateM Machine)
          (Bundle.runProgram config.bundle.program)).run log ordered.2).1.1.isOk = true := by
        have hrun := build_of_loaded skipBundle hload
        dsimp only at hrun
        split at hrun
        · rw [hrun] at h
          cases h
        · rename_i hended
          exact congrArg (fun ended => (Prod.fst (Prod.fst ended)).isOk) hended
      obtain ⟨hstages, hall⟩ := hstops.succeeds_iff.mp hok
      -- every build plans a manifest, and if it succeeds all that is planned has run
      have hmem : Build.Stage.manifest ∈ ordered.1.planned := by simp [Build.planned_eq]
      rw [← hstages] at hmem
      obtain ⟨r, hr, hstage⟩ := List.mem_map.mp hmem
      exact ⟨r, hran ▸ hr, hstage, hall r hr⟩

end CommandLine

/--
If a build, begun on some machine, completes its manifest, then `render` on the same machine
succeeds and prints what the build has written to the path of the manifest. Whether it succeeds or
not, `render` changes no file but the log.
-/
theorem render_agrees_with_build (locales : Time.Locales) (skipBundle : Bool)
    (options : CommandLine.Options) (log : Log) (w : Machine) :
    (∀ r ∈ CommandLine.ran locales skipBundle options log w, r.stage = .manifest →
      r.result.isOk = true → ∃ path config plan text,
        (CommandLine.loadValid (m := StateM Machine) locales options log w).1 =
          .ok (path, config, plan) ∧
        r.left.tree.read r.left.here config.manifestPath = .ok text.toUTF8 ∧
        (CommandLine.render (m := StateM Machine) locales options log w).1 = .ok () ∧
        (CommandLine.render (m := StateM Machine) locales options log w).2.output =
          w.output ++ text) ∧
    ((CommandLine.build (m := StateM Machine) locales skipBundle options log w).1 = .ok () →
      ∃ r ∈ CommandLine.ran locales skipBundle options log w,
        r.stage = .manifest ∧ r.result.isOk = true) ∧
    ChangedOnly (LedTo w.tree w.here log.file.toList) w.tree
      (CommandLine.render (m := StateM Machine) locales options log w).2.tree := by
  refine ⟨?_, CommandLine.manifest_of_build, CommandLine.render_files locales options log w⟩
  intro r hr hstage hok
  obtain ⟨path, config, plan, w₁, hload, hr⟩ := CommandLine.mem_ran hr
  cases hresult : r.result with
  | error e => simp [hresult, Except.isOk, Except.toBool] at hok
  | ok made =>
    obtain ⟨d, hopened, hdocument⟩ := Build.document_of_mem_ran hr hstage hresult
    -- the build went by the document that was there before it, which is what `render` finds
    have hd := Build.documentIn_before_opened log _ w₁ hopened
    obtain ⟨w₂, hrendered, hrun⟩ := CommandLine.render_of_document hload hd
    rw [hload, hrun]
    refine ⟨path, config, plan, Manifest.render made.document plan.sections, rfl, ?_, rfl, ?_⟩
    · exact (Build.leaves _ _ log _).content r hr made hresult _ _ (by rw [hstage]; rfl)
    · rw [hdocument]
      exact congrArg (· ++ _) ((CommandLine.touched_loadValid hload).trans hrendered).output

/-- A manifest with one entry is shown as it is written. -/
theorem render_agrees_with_build_entry :
    let settings := "metadata.path=\"p\"\ntimestamp.output=\"t\"\n" ++
      "bundle=\x7bentry_points=[\"a\"],output=\"o\"\x7d\nmanifest.output=\"m\"\n" ++
      "manifest.sections=[\x7bid=\"i\",type=\"key_value\",data=[[\"k\",\"v\"]]\x7d]\n"
    let w : Machine := { tree := ⟨[(["fxpack.toml"], .file settings.toUTF8 none),
      (["p"], .file "\x7b\x7d".toUTF8 none)]⟩ }
    (CommandLine.build (m := StateM Machine) {} true {} {} w).1 = .ok () ∧
      (CommandLine.render (m := StateM Machine) {} {} {} w).2.output = "k 'v'\n\n" ∧
      ∃ r ∈ CommandLine.ran {} true {} {} w, r.stage = .manifest ∧
        ∃ p, r.left.tree.read r.left.here p = .ok "k 'v'\n\n".toUTF8 := by
  intro settings w
  have hbuild : (CommandLine.build (m := StateM Machine) {} true {} {} w).1 = .ok () := by
    decide +kernel
  have hshown : (CommandLine.render (m := StateM Machine) {} {} {} w).2.output = "k 'v'\n\n" := by
    decide +kernel
  obtain ⟨hagrees, hcompletes, -⟩ := render_agrees_with_build {} true {} {} w
  obtain ⟨r, hr, hstage, hok⟩ := hcompletes hbuild
  obtain ⟨-, config, -, text, -, hread, -, houtput⟩ := hagrees r hr hstage hok
  rw [hshown] at houtput
  obtain rfl : "k 'v'\n\n" = text := houtput.trans String.empty_append
  exact ⟨hbuild, hshown, r, hr, hstage, config.manifestPath, hread⟩

end ResourceBuild
