import ResourceBuild.CommandLine.Run
import ResourceBuild.Proofs.Build.Course
import ResourceBuild.Proofs.Host.Machine
import ResourceBuild.Proofs.Metadata.Sync

/-!
# The stages of a build

What the stages of a build leave on a machine. A build stops at the first stage that fails, and the
files are as the stages up to this one have left them.
-/

namespace ResourceBuild

open Files Outcome
open Files.Tree (ChangedOnly LedTo)
open Machine (Touches Touched)

namespace Build

variable {o : Order} {bundler : Bundle.Bundler (StateM Machine)} {made made' : Made} {log : Log}
  {w w' : Machine} {r : Ran Machine} {p : Path}

/-! ### What is written -/

/-- The time is in the file that it was written to. -/
lemma read_of_writeStamp {format : Time.StampFormat} {stamp : String}
    (h : writeStamp (m := StateM Machine) format p w = (.ok stamp, w')) :
    w'.tree.read w'.here p = .ok stamp.toUTF8 := by
  cases hwrite : FileSystem.writeUnder (m := StateM Machine) .createStampDirectory .writeStamp p
      (format.write w.now) w with
  | mk result w₁ =>
    have hnow : Host.now (m := StateM Machine) w = (w.now, w) := rfl
    have hrun := ((bind_run hnow).trans (bind_run hwrite)).symm.trans h
    cases result with
    | error fault => cases hrun
    | ok _ =>
      cases hrun
      exact Machine.read_of_writeUnder hwrite

lemma read_of_writeManifest {sections : List Section} {d : Metadata}
    (h : writeManifest (m := StateM Machine) sections d p w = (.ok (), w')) :
    w'.tree.read w'.here p = .ok (Manifest.render d sections).toUTF8 := by
  cases hwrite : FileSystem.writeUnder (m := StateM Machine) .createManifestDirectory .writeManifest
      p (Manifest.render d sections) w with
  | mk result w₁ =>
    have hrun := (bind_run hwrite).symm.trans h
    cases result with
    | error fault => cases hrun
    | ok _ =>
      cases hrun
      exact Machine.read_of_writeUnder hwrite

/-- What a stage that makes a file leaves in it. -/
def Order.content (o : Order) (made : Made) : Stage → Option (Path × String)
  | .metadata => some (o.config.metadataPath, made.document.render o.config.metadata.indent)
  | .stamp => some (o.config.stampPath, made.stamp)
  | .manifest => some (o.config.manifestPath, Manifest.render made.document o.plan.sections)
  | .bundle => none

/-- Work that succeeded was done on what it has made something of. -/
lemma map_eq_ok {α : Type} {x : StateM Machine (Except Error α)} {f : α → Made}
    (h : (x >>= fun result => return result.map f) w = (.ok made, w')) :
    ∃ a, x w = (.ok a, w') ∧ made = f a := by
  cases hx : x w with
  | mk result w₁ =>
    have hrun := (bind_run hx).symm.trans h
    cases result with
    | error e => cases hrun
    | ok a =>
      cases hrun
      exact ⟨a, rfl, rfl⟩

lemma sync_of_work {staged : Log}
    (h : o.work bundler made .metadata staged w = (.ok made', w')) :
    ∃ document, Metadata.sync (m := StateM Machine) o.config.metadataPath o.version
        o.config.metadata.indent w = (.ok document, w') ∧ made' = { made with document } := by
  cases hsync : Metadata.sync (m := StateM Machine) o.config.metadataPath o.version
      o.config.metadata.indent w with
  | mk result w₁ =>
    have hrun := (bind_run hsync).symm.trans h
    cases result with
    | error failure => cases hrun
    | ok document =>
      cases hrun
      exact ⟨document, rfl, rfl⟩

/-- A stage that succeeded leaves what it has made in its file. -/
lemma left_reads {s : Stage} {text : String}
    (h : (s.ran log (o.work bundler made s) w).result = .ok made')
    (hcontent : o.content made' s = some (p, text)) :
    let left := (s.ran log (o.work bundler made s) w).left
    left.tree.read left.here p = .ok text.toUTF8 := by
  intro left
  let staged := { log with stage := some s.name }
  have hrun : o.work bundler made s staged (s.opened (m := StateM Machine) staged w).2 =
      (.ok made', left) := Prod.ext h rfl
  -- each stage writes its file as the last thing that it does
  cases s with
  | metadata =>
    obtain ⟨document, hsync, rfl⟩ := sync_of_work hrun
    cases hcontent
    obtain ⟨-, -, -, hread⟩ := Metadata.sync_eq_ok hsync
    exact hread
  | stamp =>
    obtain ⟨stamp, hwrite, rfl⟩ := map_eq_ok hrun
    cases hcontent
    exact read_of_writeStamp hwrite
  | manifest =>
    obtain ⟨_, hwrite, rfl⟩ := map_eq_ok hrun
    cases hcontent
    exact read_of_writeManifest hwrite
  | bundle => cases hcontent

/-! ### What is told -/

lemma touches_closed (s : Stage) (staged : Log) (started : Nat) (result : Except Error Made) :
    Touches staged.file.toList (s.closed (m := StateM Machine) staged started result) := by
  refine (Machine.touches_of_eq fun _ => rfl).bind fun ended => ?_
  cases result with
  | error e => exact staged.touches_failed _
  | ok made => exact staged.touches_success _

/-- After the work of its last stage, a build touches no file but the log. -/
lemma touched_of_last (h : (o.ran bundler log w).getLast? = some r) :
    Touched log.file.toList r.left ((o.carryOut bundler).run log w).2 := by
  obtain ⟨made, w₀, hran⟩ := exists_ran_of_mem (List.mem_of_getLast? h)
  have hafter : Touched log.file.toList r.left r.after := by
    rw [hran]
    exact touches_closed r.stage { log with stage := some r.stage.name } _ _ _
  have hended : o.ended bundler log w = (r.result, r.after) := by
    rw [Order.ended, ending, h]
  rw [carryOut_run, hended]
  -- what follows the last stage only tells what has come of it
  refine hafter.trans ?_
  cases r.result with
  | error e => exact Touched.refl _ _
  | ok made =>
    have hskipped : Touched log.file.toList r.after
        (o.concluded { log with stage := none } (.ok made, r.after)).2 := by
      unfold Order.concluded
      split
      · rename_i heq
        cases heq
      · rename_i heq
        cases heq
        split
        · exact Log.touches_info { log with stage := none } _ r.after
        · exact Touched.refl _ _
    exact hskipped.trans (Machine.touches_complainLine _ _)

/-- Reading a configuration leaves a machine as it is. -/
lemma load_run (p : Path) (w : Machine) :
    ∃ config, load (m := StateM Machine) p w = (config, w) := by
  have hread : FileSystem.readText (m := StateM Machine) p w =
      (FileSystem.textIn (w.tree.read w.here p), w) := FileSystem.readText_of_read rfl
  cases htext : FileSystem.textIn (w.tree.read w.here p) with
  | error cause => exact ⟨_, bind_run (hread.trans (congrArg (·, w) htext))⟩
  | ok s => exact ⟨_, bind_run (hread.trans (congrArg (·, w) htext))⟩

/-- So does validating it. -/
lemma loadValid_run (locales : Time.Locales) (p : Path) (w : Machine) :
    ∃ loaded, loadValid (m := StateM Machine) locales p w = (loaded, w) := by
  obtain ⟨config, hload⟩ := load_run p w
  cases config with
  | error e => exact ⟨_, bind_run hload⟩
  | ok c =>
    cases hvalid : c.validate locales with
    | error violations =>
      exact ⟨_, (bind_run hload).trans (by simp only [hvalid]; rfl)⟩
    | ok plan =>
      exact ⟨_, (bind_run hload).trans (by simp only [hvalid]; rfl)⟩

/-- Whether the files of a machine are as the stages of a build have left them. -/
structure Order.Leaves (o : Order) (bundler : Bundle.Bundler (StateM Machine)) (log : Log)
    (w : Machine) : Prop where
  /-- A stage that succeeded has left what it has made in its file. -/
  content : ∀ r ∈ o.ran bundler log w, ∀ made, r.result = .ok made →
    ∀ p text, o.content made r.stage = some (p, text) →
      r.left.tree.read r.left.here p = .ok text.toUTF8
  /-- After the work of the last stage, no file but the log is changed. -/
  last : ∀ r, (o.ran bundler log w).getLast? = some r →
    ChangedOnly (LedTo r.left.tree r.left.here log.file.toList) r.left.tree
      ((o.carryOut bundler).run log w).2.tree

lemma leaves (o : Order) (bundler : Bundle.Bundler (StateM Machine)) (log : Log) (w : Machine) :
    o.Leaves bundler log w where
  content r hr made hresult p text hcontent := by
    obtain ⟨made₀, w₀, hran⟩ := exists_ran_of_mem hr
    rw [hran] at hresult ⊢
    exact left_reads hresult hcontent
  last r hr := (touched_of_last hr).files

end Build

namespace CommandLine

variable {locales : Time.Locales} {options : Options} {log : Log} {w : Machine}

/-- Loading the configuration is told to the log, and changes nothing else. -/
lemma loadValid_run (locales : Time.Locales) (options : Options) (log : Log) (w : Machine) :
    ∃ path loaded, loadValid (m := StateM Machine) locales options log w =
      (loaded, (log.debug (m := StateM Machine) ("Using configuration: " ++ path) w).2) := by
  obtain ⟨path, hpath⟩ : ∃ path, options.configPath (m := StateM Machine) w = (path, w) :=
    ⟨_, rfl⟩
  have hdebug : log.debug (m := StateM Machine) ("Using configuration: " ++ path.text) w =
    ((), (log.debug (m := StateM Machine) ("Using configuration: " ++ path.text) w).2) := rfl
  obtain ⟨loaded, hload⟩ := Build.loadValid_run locales path
    (log.debug (m := StateM Machine) ("Using configuration: " ++ path.text) w).2
  refine ⟨path.text, loaded.map fun (config, plan) => (path, config, plan), ?_⟩
  refine (bind_run hpath).trans ((bind_run hdebug).trans ((bind_run hload).trans ?_))
  cases loaded <;> rfl

lemma touched_loadValid {w' : Machine} {loaded : Except Build.Error (Path × Config × Config.Plan)}
    (h : loadValid (m := StateM Machine) locales options log w = (loaded, w')) :
    Touched log.file.toList w w' := by
  obtain ⟨path, loaded', hrun⟩ := loadValid_run locales options log w
  cases hrun.symm.trans h
  exact log.touches_debug ("Using configuration: " ++ path) w

/-- A build that was loaded gives what its stages give. -/
lemma build_of_loaded {σ : Type} [Host (StateM σ)] {options : Options} {log : Log} {d d₁ : σ}
    {path : Path} {config : Config} {plan : Config.Plan} (skipBundle : Bool)
    (hload : loadValid (m := StateM σ) locales options log d = (.ok (path, config, plan), d₁)) :
    let d₂ := (log.step (m := StateM σ) ("Building from " ++ path.text) d₁).2
    let ordered := Build.Order.ofConfig (m := StateM σ) config plan skipBundle d₂
    let bundler : Bundle.Bundler (StateM σ) := Bundle.runProgram config.bundle.program
    match (ordered.1.carryOut bundler).run log ordered.2 with
    | ((.error e, _), d₃) =>
      build (m := StateM σ) locales skipBundle options log d = (.error (.build e), d₃)
    | ((.ok _, _), _) => (build (m := StateM σ) locales skipBundle options log d).1 = .ok () := by
  intro d₂ ordered bundler
  have hstep : log.step (m := StateM σ) ("Building from " ++ path.text) d₁ = ((), d₂) := rfl
  have hordered : Build.Order.ofConfig (m := StateM σ) config plan skipBundle d₂ =
    (ordered.1, ordered.2) := rfl
  split
  · rename_i e log' d₃ hended
    exact (bind_run hload).trans ((bind_run hstep).trans ((bind_run hordered).trans
      (bind_run hended)))
  · rename_i report log' d₃ hended
    have hrun : build (m := StateM σ) locales skipBundle options log d =
        (.ok (), (tellBuilt (m := StateM σ) report log' d₃).2) :=
      (bind_run hload).trans ((bind_run hstep).trans ((bind_run hordered).trans
        (bind_run hended)))
    rw [hrun]

end CommandLine

/--
A build whose configuration cannot be loaded or is not valid runs no stage and changes no file but
the log. Any other runs an initial segment of its stages, up to the first one that fails, and gives
the report of what they have made or the error of the last one; whatever follows that stage is not
done, and the files are as it has left them, the log aside. This is so on every host and for every
bundler, whatever they do. On a machine each stage that succeeded leaves in its file what the report
tells.
-/
theorem build_stops_at_first_failure :
    (∀ {σ : Type} [Host (StateM σ)] (locales : Time.Locales) (skipBundle : Bool)
      (options : CommandLine.Options) (log : Log) (d : σ),
      let run := CommandLine.build (m := StateM σ) locales skipBundle options log d
      match CommandLine.loadValid (m := StateM σ) locales options log d with
      | (.error e, d₁) => run = (.error (.build e), d₁)
      | (.ok (path, config, plan), d₁) =>
        let d₂ := (log.step (m := StateM σ) ("Building from " ++ path.text) d₁).2
        let ordered := Build.Order.ofConfig (m := StateM σ) config plan skipBundle d₂
        let bundler : Bundle.Bundler (StateM σ) := Bundle.runProgram config.bundle.program
        ordered.1.config = config ∧ ordered.1.skipBundle = skipBundle ∧
        match (ordered.1.carryOut bundler).run log ordered.2 with
        | ((.error e, _), d₃) => run = (.error (.build e), d₃)
        | ((.ok _, _), _) => run.1 = .ok ()) ∧
    (∀ (locales : Time.Locales) (skipBundle : Bool) (options : CommandLine.Options) (log : Log)
      (w : Machine),
      match CommandLine.loadValid (m := StateM Machine) locales options log w with
      | (.error _, _) => ChangedOnly (LedTo w.tree w.here log.file.toList) w.tree
          (CommandLine.build (m := StateM Machine) locales skipBundle options log w).2.tree
      | (.ok _, _) => True) ∧
    (∀ {σ : Type} [Host (StateM σ)] (o : Build.Order) (bundler : Bundle.Bundler (StateM σ))
      (log : Log) (d : σ), o.StopsAtFirstFailure bundler log d) ∧
    ∀ (o : Build.Order) (bundler : Bundle.Bundler (StateM Machine)) (log : Log) (w : Machine),
      o.Leaves bundler log w := by
  refine ⟨?_, ?_, Build.stopsAtFirstFailure, Build.leaves⟩
  · intro σ _ locales skipBundle options log d run
    split
    · rename_i e d₁ hload
      exact bind_run hload
    · rename_i path config plan d₁ hload
      exact ⟨rfl, rfl, CommandLine.build_of_loaded skipBundle hload⟩
  · intro locales skipBundle options log w
    split
    · rename_i e w₁ hload
      rw [show CommandLine.build (m := StateM Machine) locales skipBundle options log w =
        (.error (.build e), w₁) from bind_run hload]
      exact (CommandLine.touched_loadValid hload).files
    · trivial

/-- The time cannot be written where a directory stands, so there is no manifest and no bundle. -/
theorem build_stops_at_first_failure_directory :
    let o : Build.Order := {
      config := { metadata := { path := ⟨"p"⟩ }, stamp := { output := ⟨"t"⟩ },
                  manifest := { output := ⟨"m"⟩ }, bundle := { output := ⟨"b"⟩ } }
      plan := ⟨[], .iso⟩
      format := .iso
      version := some "2"
      skipBundle := false }
    let w : Machine := { tree := ⟨[(["p"], .file "\x7b\x7d".toUTF8 none), (["t"], .directory)]⟩ }
    let bundler : Bundle.Bundler (StateM Machine) := Bundle.runProgram "esbuild"
    let run := (o.carryOut bundler).run {} w
    run.1.1 = .error (.file ⟨.writeStamp, ⟨"t"⟩, .isADirectory⟩) ∧ run.1.2 = {} ∧
      (∃ r, (o.ran bundler {} w).getLast? = some r ∧ r.stage = .stamp ∧ run.2 = r.after) ∧
      (∀ bundler' : Bundle.Bundler (StateM Machine), (o.carryOut bundler').run {} w = run) ∧
      run.2.tree.read [] ⟨"p"⟩ = .ok "\x7b\n  \"version\": \"2\"\n\x7d\n".toUTF8 ∧
      run.2.tree.read [] ⟨"m"⟩ = .error .notFound := by
  intro o w bundler run
  have hresult : run.1.1 = .error (.file ⟨.writeStamp, ⟨"t"⟩, .isADirectory⟩) := by decide +kernel
  have hstages : (o.ran bundler {} w).map (·.stage) = [.metadata, .stamp] := by decide +kernel
  have hfiles : run.2.tree.read [] ⟨"p"⟩ = .ok "\x7b\n  \"version\": \"2\"\n\x7d\n".toUTF8 ∧
      run.2.tree.read [] ⟨"m"⟩ = .error .notFound := by decide +kernel
  obtain ⟨-, -, hstops, -⟩ := build_stops_at_first_failure
  have hrun := hstops o bundler {} w
  obtain ⟨r, hlast, -, hleft⟩ := hrun.fails _ hresult
  have hnone : ∀ r ∈ o.ran bundler {} w, r.stage ≠ .bundle := by
    intro r hr hstage
    have hmem := List.mem_map_of_mem (f := Build.Ran.stage) hr
    rw [hstages, hstage] at hmem
    simp at hmem
  have hstage : r.stage = .stamp := by
    have hmap := congrArg List.getLast? hstages
    rw [List.getLast?_map, hlast] at hmap
    simpa using hmap
  exact ⟨hresult, hrun.idle, ⟨r, hlast, hstage, hleft⟩, hrun.uncalled hnone, hfiles⟩

end ResourceBuild
