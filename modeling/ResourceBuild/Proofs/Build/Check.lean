import ResourceBuild.CommandLine.Run
import ResourceBuild.Host.Machine
import ResourceBuild.Proofs.Manifest.Sound

/-!
# What a check tells

A check prints how many sections a valid configuration makes, and how many of them are rendered.
The latter is the number of sections that the configuration enables.
-/

namespace ResourceBuild

open Files Outcome

/-- A valid configuration makes the sections of its declarations, in which nothing is wrong. -/
lemma Config.sections_of_validate {locales : Time.Locales} {c : Config} {plan : Plan}
    (h : c.validate locales = .ok plan) :
    (Manifest.validate c.manifest.sections).2 = [] ∧
      plan.sections = (Manifest.validate c.manifest.sections).1 := by
  unfold validate at h
  split at h
  · rename_i hnil
    cases h
    have hsections := (List.append_eq_nil_iff.mp hnil).2
    exact ⟨List.map_eq_nil_iff.mp hsections, rfl⟩
  · cases h

section Hosts

variable {σ : Type} [Host (StateM σ)] {d d' : σ} {locales : Time.Locales} {path : Path}
  {config : Config} {plan : Config.Plan}

/-- A configuration that is loaded is valid. -/
lemma Build.validate_of_loadValid
    (h : loadValid (m := StateM σ) locales path d = (.ok (config, plan), d')) :
    config.validate locales = .ok plan := by
  cases hload : load (m := StateM σ) path d with
  | mk loaded d₁ =>
    have hrun := (bind_run hload).symm.trans h
    cases loaded with
    | error e => cases hrun
    | ok c =>
      cases hvalid : c.validate locales with
      | error violations =>
        simp only [hvalid] at hrun
        cases hrun
      | ok p =>
        simp only [hvalid] at hrun
        cases hrun
        exact hvalid

namespace CommandLine

variable {options : Options} {log : Log}

lemma validate_of_loadValid
    (h : loadValid (m := StateM σ) locales options log d = (.ok (path, config, plan), d')) :
    config.validate locales = .ok plan := by
  cases hpath : options.configPath (m := StateM σ) d with
  | mk p d₁ =>
    have hdebug : log.debug (m := StateM σ) ("Using configuration: " ++ p.text) d₁ =
      ((), (log.debug (m := StateM σ) ("Using configuration: " ++ p.text) d₁).2) := rfl
    cases hload : Build.loadValid (m := StateM σ) locales p
        (log.debug (m := StateM σ) ("Using configuration: " ++ p.text) d₁).2 with
    | mk loaded d₂ =>
      have hrun := (bind_run hdebug).symm.trans ((bind_run hpath).symm.trans h)
      have hloaded := (bind_run hload).symm.trans hrun
      cases loaded with
      | error e => cases hloaded
      | ok found =>
        cases hloaded
        exact Build.validate_of_loadValid hload

def validLine (path : Path) (sections enabled : Nat) : String :=
  "✔ " ++ path.text ++ " is valid (" ++ Text.decimal sections ++ " sections, " ++
    Text.decimal enabled ++ " enabled)"

/-- A check succeeds once a configuration is loaded, and prints the line on it. -/
lemma check_of_loaded
    (hload : loadValid (m := StateM σ) locales options log d = (.ok (path, config, plan), d')) :
    check (m := StateM σ) locales options log d = (.ok (), (Host.printLine (m := StateM σ)
      (validLine path plan.sections.length
        (config.manifest.sections.countP (·.enabled))) d').2) := by
  obtain ⟨hnil, hsections⟩ := Config.sections_of_validate (validate_of_loadValid hload)
  rw [← Manifest.countP_isRenderable hnil, ← hsections]
  exact bind_run hload

end CommandLine

end Hosts

/--
Where validation finds nothing wrong with a list of declarations, its sections have different bare
ids, and each enabled one has its headings and is rendered. Those that are rendered are the sections
of the enabled declarations, in their order, with a row for each item of the data. So a check prints
the number of enabled declarations as that of enabled sections, whenever a valid configuration is
loaded.
-/
theorem valid_sections_sound :
    (∀ ds : List Manifest.Declaration, (Manifest.validate ds).2 = [] →
      (∀ s ∈ (Manifest.validate ds).1, Manifest.Sound s) ∧
      ((Manifest.validate ds).1.map Section.id).Nodup ∧
      List.Forall₂ (fun d s => d.Makes s ∧ ∃ xs, d.data = some (.array xs) ∧
          s.body.size = xs.length ∧ xs ≠ [])
        (ds.filter (·.enabled)) ((Manifest.validate ds).1.filter Section.isRenderable) ∧
      (Manifest.validate ds).1.countP Section.isRenderable = ds.countP (·.enabled)) ∧
    ∀ {σ : Type} [Host (StateM σ)] (locales : Time.Locales) (options : CommandLine.Options)
      (log : Log) (d : σ),
      let run := CommandLine.check (m := StateM σ) locales options log d
      match CommandLine.loadValid (m := StateM σ) locales options log d with
      | (.error e, d₁) => run = (.error (.build e), d₁)
      | (.ok (path, config, plan), d₁) =>
        run = (.ok (), (Host.printLine (m := StateM σ) (CommandLine.validLine path
          plan.sections.length (config.manifest.sections.countP (·.enabled))) d₁).2) := by
  refine ⟨fun ds h => ?_, ?_⟩
  · obtain ⟨haccepted, hdistinct, hcollected⟩ := Manifest.collected_of_valid h
    exact ⟨hcollected.sound haccepted, hcollected.nodup_ids hdistinct,
      hcollected.enabled haccepted, Manifest.countP_isRenderable h⟩
  · intro σ _ locales options log d run
    split
    · rename_i e d₁ hload
      exact bind_run hload
    · rename_i path config plan d₁ hload
      exact CommandLine.check_of_loaded hload

/-- Of two sections, the disabled one has no keys and no rows. -/
theorem valid_sections_sound_disabled :
    let settings := "metadata.path=\"p\"\ntimestamp.output=\"t\"\n" ++
      "bundle=\x7bentry_points=[\"a\"],output=\"o\"\x7d\nmanifest.output=\"m\"\n" ++
      "manifest.sections=[\x7bid=\"i\",type=\"key_value\",data=[[\"k\",\"v\"]]\x7d," ++
      "\x7bid=\"j\",type=\"list\",enabled=false\x7d]\n"
    let w : Machine := { tree := ⟨[(["fxpack.toml"], .file settings.toUTF8 none)]⟩ }
    let ds : List Manifest.Declaration :=
      [{ id := some " i ", kind := some "key_value",
          data := some (.array [.array [.text "k", .text "v"]]) },
        { id := some "j", kind := some "list", enabled := false }]
    (Manifest.validate ds).1.countP Section.isRenderable = 1 ∧
      (∀ s ∈ (Manifest.validate ds).1, Manifest.Sound s) ∧
      ∃ path config plan w₁,
        CommandLine.loadValid (m := StateM Machine) {} {} {} w = (.ok (path, config, plan), w₁) ∧
        w₁.output ++ (CommandLine.validLine path plan.sections.length
          (config.manifest.sections.countP (·.enabled)) ++ "\n") =
            "✔ fxpack.toml is valid (2 sections, 1 enabled)\n" := by
  intro settings w ds
  have hnil : (Manifest.validate ds).2 = [] := by rfl
  have hdone : (CommandLine.check (m := StateM Machine) {} {} {} w).1 = .ok () ∧
      (CommandLine.check (m := StateM Machine) {} {} {} w).2.output =
        "✔ fxpack.toml is valid (2 sections, 1 enabled)\n" := by decide +kernel
  obtain ⟨hok, houtput⟩ := hdone
  obtain ⟨hvalid, hchecked⟩ := valid_sections_sound
  obtain ⟨hsound, -, -, hcount⟩ := hvalid ds hnil
  have hrun := hchecked {} {} {} w
  dsimp only at hrun
  refine ⟨hcount, hsound, ?_⟩
  split at hrun
  · rw [hrun] at hok
    cases hok
  · rename_i path config plan w₁ hload
    rw [hrun] at houtput
    exact ⟨path, config, plan, w₁, hload, houtput⟩

end ResourceBuild
