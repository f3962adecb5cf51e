import ResourceBuild.Proofs.Build.Stages
import ResourceBuild.Proofs.Release.Monitor
import ResourceBuild.Proofs.Text.Blank

/-!
# What a release check goes by

The repository, the version in use and the delay are taken from the command line, or else from the
configuration and its metadata. Which of them can be had decides whether there is anything to check.
A check that is interrupted before it asks is called off, and prints nothing. However it ends, the
command succeeds and leaves all files but the log as they are.
-/

namespace ResourceBuild.CommandLine

open Files Outcome
open Files.Tree (ChangedOnly LedTo)
open Machine (Touches Touched)
open Release (Monitor Progress)
open Text (Filled)

/-! ### Where values come from -/

/-- What a check can take its values from. -/
structure Sources where
  /-- The repository that is given. -/
  repository : Option String
  /-- The version that is given. -/
  current : Option String
  /-- The delay that is given. -/
  delay : Option Nat
  /-- The configuration, if it can be loaded. -/
  config : Option Config
  /-- The metadata of a configuration. -/
  document : Config → Except Metadata.Failure Metadata

namespace Sources

variable (s : Sources)

def release : Option Config.ReleaseSettings :=
  s.config.bind Config.release

/-- The repository that counts. -/
def effective : Option String :=
  s.repository.or (s.release.map Config.ReleaseSettings.repository)

/-- The version in use, or why there is none. -/
inductive Versioned : Except Unresolved String → Prop where
  | given {version : String} (h : s.current = some version) : Versioned (.ok version)
  | documented {c : Config} {document : Metadata} {version : String} (hcurrent : s.current = none)
      (hconfig : s.config = some c) (hdocument : s.document c = .ok document)
      (hversion : document.version? = some version) : Versioned (.ok version)
  | unconfigured (hcurrent : s.current = none) (hconfig : s.config = none) :
      Versioned (.error .noCurrentVersion)
  | unreadable {c : Config} {failure : Metadata.Failure} (hcurrent : s.current = none)
      (hconfig : s.config = some c) (hdocument : s.document c = .error failure) :
      Versioned (.error (.metadata failure))
  | unnamed {c : Config} {document : Metadata} (hcurrent : s.current = none)
      (hconfig : s.config = some c) (hdocument : s.document c = .ok document)
      (hversion : document.version? = none) : Versioned (.error .noVersion)

/-- No version is given, and none is found in the metadata of a configuration. -/
def Unversioned : Prop :=
  s.current = none ∧ (s.config = none ∨ ∃ c, s.config = some c ∧
    ((∃ failure, s.document c = .error failure) ∨
      ∃ document, s.document c = .ok document ∧ document.version? = none))

/-- What a check goes by, or why there is nothing to check. The repository is looked at first. -/
inductive Resolves : Except Unresolved ReleaseQuery → Prop where
  | noRepository (h : ¬Filled s.effective) : Resolves (.error .noRepository)
  | noVersion {reason : Unresolved} (hrepository : Filled s.effective)
      (hversion : s.Versioned (.error reason)) : Resolves (.error reason)
  | resolved {q : ReleaseQuery} (hrepository : s.effective = some q.repository)
      (hfilled : Filled s.effective) (hversion : s.Versioned (.ok q.current))
      (hdelay : q.delay = (s.delay.or (s.release.map Config.ReleaseSettings.delay)).getD 5) :
      Resolves (.ok q)

variable {s}

lemma Versioned.exists_error_iff {version : Except Unresolved String} (h : s.Versioned version) :
    (∃ reason, version = .error reason) ↔ s.Unversioned := by
  unfold Unversioned
  cases h with
  | given h => simp [h]
  | documented hcurrent hconfig hdocument hversion => simp [hconfig, hdocument, hversion]
  | unconfigured hcurrent hconfig => simp [hcurrent, hconfig]
  | unreadable hcurrent hconfig hdocument => simp [hcurrent, hconfig, hdocument]
  | unnamed hcurrent hconfig hdocument hversion => simp [hcurrent, hconfig, hdocument, hversion]

lemma Resolves.exists_error_iff {result : Except Unresolved ReleaseQuery} (h : s.Resolves result) :
    (∃ reason, result = .error reason) ↔ ¬Filled s.effective ∨ s.Unversioned := by
  cases h with
  | noRepository h => exact iff_of_true ⟨_, rfl⟩ (Or.inl h)
  | noVersion hrepository hversion =>
    exact iff_of_true ⟨_, rfl⟩ (Or.inr (hversion.exists_error_iff.mp ⟨_, rfl⟩))
  | resolved hrepository hfilled hversion hdelay =>
    refine iff_of_false (by simp) ?_
    rintro (hnot | hnone)
    · exact hnot hfilled
    · simpa using hversion.exists_error_iff.mpr hnone

end Sources

/-! ### How they are found -/

section Host

variable {σ : Type} [Host (StateM σ)] {repository current : Option String} {delay : Option Nat}
  {o : Options} {log : Log} {d d₁ : σ} {s : Sources}

/-- What there is to take the values from on a host. -/
def sources (repository current : Option String) (delay : Option Nat) (o : Options) (d : σ) :
    Sources where
  repository := repository
  current := current
  delay := delay
  config := (o.loadConfig (m := StateM σ) d).1.toOption
  document c :=
    (Metadata.load (m := StateM σ) c.metadataPath (o.loadConfig (m := StateM σ) d).2).1

lemma sources_of_load (repository current : Option String) (delay : Option Nat)
    {loaded : Except Build.Error Config} (h : o.loadConfig (m := StateM σ) d = (loaded, d₁)) :
    (sources repository current delay o d).config = loaded.toOption ∧
      ∀ c, (sources repository current delay o d).document c =
        (Metadata.load (m := StateM σ) c.metadataPath d₁).1 := by
  simp only [sources, h, implies_true, and_self]

lemma configIfAny_of_ok {c : Config} (h : o.loadConfig (m := StateM σ) d = (.ok c, d₁)) :
    configIfAny (m := StateM σ) o log d = (some c, d₁) := by
  rw [configIfAny, bind_run h]
  rfl

lemma configIfAny_of_error {e : Build.Error} (log : Log)
    (h : o.loadConfig (m := StateM σ) d = (.error e, d₁)) :
    ∃ d₂, configIfAny (m := StateM σ) o log d = (none, d₂) := by
  rw [configIfAny, bind_run h]
  exact ⟨_, rfl⟩

lemma versioned_metadataVersion {c : Config} (hcurrent : s.current = none)
    (hconfig : s.config = some c)
    (hdocument : s.document c = (Metadata.load (m := StateM σ) c.metadataPath d).1) :
    s.Versioned (metadataVersion (m := StateM σ) c d).1 := by
  cases hload : Metadata.load (m := StateM σ) c.metadataPath d with
  | mk loaded d₁ =>
    rw [hload] at hdocument
    rw [metadataVersion, bind_run hload]
    cases loaded with
    | error failure => exact .unreadable hcurrent hconfig hdocument
    | ok document =>
      cases hversion : document.version? with
      | none =>
        simp only [hversion]
        exact .unnamed hcurrent hconfig hdocument hversion
      | some version =>
        simp only [hversion]
        exact .documented hcurrent hconfig hdocument hversion

/-- The version is looked for where the sources say. -/
lemma versioned_currentVersion
    (hdocument : ∀ c, s.config = some c →
      s.document c = (Metadata.load (m := StateM σ) c.metadataPath d).1) :
    s.Versioned (currentVersion (m := StateM σ) s.current s.config d).1 := by
  cases hcurrent : s.current with
  | some version => exact .given hcurrent
  | none =>
    cases hconfig : s.config with
    | none => exact .unconfigured hcurrent hconfig
    | some c => exact versioned_metadataVersion hcurrent hconfig (hdocument c hconfig)

lemma repository?_eq (s : Sources) :
    repository? s.repository s.release = match s.effective with
      | some repository => if Text.isBlankText repository then none else some repository
      | none => none := rfl

lemma repository?_eq_none (h : ¬Filled s.effective) :
    repository? s.repository s.release = none := by
  rw [repository?_eq]
  cases heffective : s.effective with
  | none => rfl
  | some repository =>
    rw [heffective, Text.filled_some_iff, not_not] at h
    exact if_pos h

lemma repository?_eq_some (h : Filled s.effective) :
    ∃ repository, s.effective = some repository ∧
      repository? s.repository s.release = some repository := by
  rw [repository?_eq]
  cases heffective : s.effective with
  | none => exact absurd (heffective ▸ h) Text.not_filled_none
  | some repository =>
    rw [heffective, Text.filled_some_iff] at h
    exact ⟨repository, rfl, if_neg h⟩

lemma resolves_resolveWith
    (hdocument : ∀ c, s.config = some c →
      s.document c = (Metadata.load (m := StateM σ) c.metadataPath d).1) :
    s.Resolves (resolveWith (m := StateM σ) s.repository s.current s.delay s.config d).1 := by
  have hversion := versioned_currentVersion hdocument
  by_cases hfilled : Filled s.effective
  · obtain ⟨repository, heffective, hrepository⟩ := repository?_eq_some hfilled
    cases hcurrent : currentVersion (m := StateM σ) s.current s.config d with
    | mk version d₁ =>
      rw [hcurrent] at hversion
      unfold Sources.release at hrepository
      simp only [resolveWith, hrepository]
      rw [bind_run hcurrent]
      cases version with
      | error reason => exact .noVersion hfilled hversion
      | ok current => exact .resolved heffective hfilled hversion rfl
  · have hrepository := repository?_eq_none hfilled
    unfold Sources.release at hrepository
    simp only [resolveWith, hrepository]
    exact .noRepository hfilled

/-- With all values given, nothing is asked of the host. -/
lemma resolve_given (repository current : String) (delay : Nat) (o : Options) (log : Log) (d : σ) :
    resolve (m := StateM σ) (some repository) (some current) (some delay) o log d =
      (if Text.isBlankText repository then .error .noRepository
        else .ok ⟨repository, current, delay⟩, d) := by
  change resolveWith (m := StateM σ) (some repository) (some current) (some delay) none d = _
  cases hblank : Text.isBlankText repository <;>
    simp only [resolveWith, repository?, Option.some_or, hblank] <;> rfl

lemma resolves_given (hrepository : repository.isSome) (hcurrent : current.isSome)
    (hdelay : delay.isSome) :
    (sources repository current delay o d).Resolves
      (resolve (m := StateM σ) repository current delay o log d).1 := by
  obtain ⟨repository, rfl⟩ := Option.isSome_iff_exists.mp hrepository
  obtain ⟨current, rfl⟩ := Option.isSome_iff_exists.mp hcurrent
  obtain ⟨delay, rfl⟩ := Option.isSome_iff_exists.mp hdelay
  rw [resolve_given]
  split_ifs with hblank
  · exact .noRepository fun hfilled => Text.filled_some_iff.mp hfilled hblank
  · exact .resolved rfl (Text.filled_some_iff.mpr hblank) (.given rfl) rfl

/-- A check goes by what the sources say. -/
lemma resolves_resolve (repository current : Option String) (delay : Option Nat) (o : Options)
    (log : Log) (d : σ) :
    (sources repository current delay o d).Resolves
      (resolve (m := StateM σ) repository current delay o log d).1 := by
  cases hgiven : repository.isSome && current.isSome && delay.isSome with
  | true =>
    simp only [Bool.and_eq_true] at hgiven
    obtain ⟨⟨hrepository, hcurrent⟩, hdelay⟩ := hgiven
    exact resolves_given hrepository hcurrent hdelay
  | false =>
    rw [resolve, hgiven, if_neg Bool.false_ne_true]
    cases hload : o.loadConfig (m := StateM σ) d with
    | mk loaded d₁ =>
      obtain ⟨hconfig, hdocument⟩ := sources_of_load repository current delay hload
      cases loaded with
      | error e =>
        -- the log may change the host, but there is no metadata to be read after that
        obtain ⟨d₂, hnone⟩ := configIfAny_of_error log hload
        have hwith := resolves_resolveWith (d := d₂) fun c hc => by cases hconfig.symm.trans hc
        rw [hconfig] at hwith
        rwa [bind_run hnone]
      | ok c =>
        have hwith := resolves_resolveWith (d := d₁) fun c _ => hdocument c
        rw [hconfig] at hwith
        rwa [bind_run (configIfAny_of_ok hload)]

/-- A check that is watched either ends or is called off. -/
lemma watch_cases (q : ReleaseQuery) (log : Log) (d : σ) :
    (∃ found, (watch (m := StateM σ) q log d).1 = Monitor.started.finish found) ∨
      (watch (m := StateM σ) q log d).1 = Monitor.started.cancel := by
  unfold watch
  generalize log.debug (m := StateM σ) _ = telling
  have htold : telling d = ((), (telling d).2) := rfl
  rw [bind_run htold]
  cases hslept : Host.sleep (m := StateM σ) q.delay (telling d).2 with
  | mk passed d₁ =>
    rw [bind_run hslept]
    cases passed with
    | false => exact Or.inr rfl
    | true =>
      cases hfetched : Host.fetch (m := StateM σ) (Release.requestAddress q.repository) d₁ with
      | mk answer d₂ =>
        rw [if_pos rfl, bind_run hfetched]
        -- the interrupt may also come while the answer is awaited
        cases answer with
        | none => exact Or.inr rfl
        | some answer => exact Or.inl ⟨_, rfl⟩

/-- On every host, what is done to the monitor of a check is a run that tells nothing yet, and then
it can be waited for. -/
theorem watch_run (q : ReleaseQuery) (log : Log) (d : σ) :
    let monitor := (watch (m := StateM σ) q log d).1
    Monitor.Run .started [] monitor ∧ monitor.progress ≠ .pending := by
  intro monitor
  obtain ⟨found, hmonitor⟩ | hmonitor := watch_cases q log d
  · rw [show monitor = _ from hmonitor]
    exact ⟨.snoc .nil (.finish found), by simp [Monitor.finish, Monitor.settle, Monitor.started]⟩
  · rw [show monitor = _ from hmonitor]
    exact ⟨.snoc .nil .cancel, by simp [Monitor.cancel, Monitor.settle, Monitor.started]⟩

/-- Whatever is found, the exit code is that of a success. -/
lemma run_of_parse (locales : Time.Locales) {arguments : List String}
    (h : parse arguments = .ok (o, .releaseCheck repository current delay)) (d : σ) :
    (run (m := StateM σ) locales arguments d).1 = 0 := by
  unfold run
  rw [h]
  cases hstart : Log.start (m := StateM σ) {} o.level d with
  | mk started d₁ =>
    obtain ⟨log, failure⟩ := started
    simp only
    rw [bind_run hstart]
    cases failure <;> rfl

end Host

/-! ### What it does on a machine -/

section Machine

variable {ps : List Path} (repository current : Option String) (delay : Option Nat) (o : Options)
  (log : Log)

/-- What is read is left as it is. -/
lemma loadConfig_run (w : Machine) :
    (o.loadConfig (m := StateM Machine) w).2 = w := by
  obtain ⟨path, hpath⟩ : ∃ path, o.configPath (m := StateM Machine) w = (path, w) := ⟨_, rfl⟩
  obtain ⟨config, hload⟩ := Build.load_run path w
  rw [Options.loadConfig, bind_run hpath, hload]

lemma touches_configIfAny : Touches log.file.toList (configIfAny (m := StateM Machine) o log) := by
  unfold configIfAny
  refine (Machine.touches_of_eq (loadConfig_run o)).bind fun loaded => ?_
  cases loaded with
  | error e => exact (log.touches_debug _).bind fun _ => Touches.pure none
  | ok c => exact Touches.pure (some c)

lemma touches_metadataVersion (c : Config) :
    Touches ps (metadataVersion (m := StateM Machine) c) := by
  refine (Machine.touches_of_eq fun w => ?_).bind fun loaded => ?_
  · rw [Metadata.load_run]
  · cases loaded with
    | error failure => exact Touches.pure _
    | ok document =>
      simp only
      split <;> exact Touches.pure _

lemma touches_currentVersion (config : Option Config) :
    Touches ps (currentVersion (m := StateM Machine) current config) := by
  cases current with
  | some version => exact Touches.pure _
  | none =>
    cases config with
    | none => exact Touches.pure _
    | some c => exact touches_metadataVersion c

lemma touches_resolveWith (config : Option Config) :
    Touches ps (resolveWith (m := StateM Machine) repository current delay config) := by
  simp only [resolveWith]
  cases repository? repository (config.bind Config.release) with
  | none => exact Touches.pure _
  | some repository =>
    refine (touches_currentVersion current config).bind fun version => ?_
    cases version <;> exact Touches.pure _

/-- Nothing is told of a check whose values are all given. -/
lemma touches_resolve :
    Touches log.file.toList (resolve (m := StateM Machine) repository current delay o log) := by
  cases hgiven : repository.isSome && current.isSome && delay.isSome with
  | true =>
    rw [resolve, hgiven, if_pos rfl]
    exact touches_resolveWith repository current delay none
  | false =>
    rw [resolve, hgiven, if_neg Bool.false_ne_true]
    exact (touches_configIfAny o log).bind (touches_resolveWith repository current delay)

lemma touches_noteOutcome (outcome : Release.Outcome) :
    Touches log.file.toList (noteOutcome (m := StateM Machine) log outcome) := by
  cases outcome with
  | updateAvailable current latest url => exact log.touches_warn _
  | upToDate current => exact log.touches_info _
  | skipped reason => exact log.touches_debug _

lemma touches_noteEnd (q : ReleaseQuery) (ended : Except Release.Failure Release.Outcome) :
    Touches log.file.toList (noteEnd (m := StateM Machine) q log ended) := by
  cases ended with
  | error failure => exact (log.touches_warn _).bind fun _ => Touches.pure none
  | ok outcome => exact (touches_noteOutcome log outcome).bind fun _ => Touches.pure (some outcome)

/-- A check that is going on prints nothing. -/
lemma touches_watch (q : ReleaseQuery) :
    Touches log.file.toList (watch (m := StateM Machine) q log) := by
  refine (log.touches_debug _).bind fun _ => ?_
  refine (Machine.touches_of_eq fun _ => rfl).bind fun passed => ?_
  cases passed with
  | false => exact Touches.pure _
  | true =>
    refine (Machine.touches_of_eq fun _ => rfl).bind fun answer => ?_
    cases answer with
    | none => exact Touches.pure _
    | some answer => exact (touches_noteEnd log q _).bind fun _ => Touches.pure _

/-- How a check ends on a machine: it is called off by an interrupt that comes before it asks. -/
def progressOn (q : ReleaseQuery) (w : Machine) : Progress :=
  if w.interrupt.all fun limit => q.delay ≤ limit then
    .ended (Release.judge q.current (w.feed (Release.requestAddress q.repository))).toOption
  else .cancelled

lemma noteEnd_result (q : ReleaseQuery) (ended : Except Release.Failure Release.Outcome)
    (w : Machine) : (noteEnd (m := StateM Machine) q log ended w).1 = ended.toOption := by
  cases ended <;> rfl

lemma watch_result (q : ReleaseQuery) (w : Machine) :
    (watch (m := StateM Machine) q log w).1 = ⟨progressOn q w, false⟩ := by
  have htouched := log.touches_debug ("Checking " ++ q.repository ++ " for releases newer than " ++
    q.current ++ " in " ++ Text.decimal q.delay ++ "s") w
  unfold watch
  generalize log.debug (m := StateM Machine) _ = telling at htouched ⊢
  have htold : telling w = ((), (telling w).2) := rfl
  -- telling the log does not change what is on the feed, nor when the interrupt comes
  rw [bind_run htold, progressOn, ← htouched.interrupt, ← htouched.feed]
  generalize (telling w).2 = w₁
  have hslept : Host.sleep (m := StateM Machine) q.delay w₁ =
    (w₁.interrupt.all fun limit => q.delay ≤ limit, w₁) := rfl
  rw [bind_run hslept]
  cases hover : w₁.interrupt.all fun limit => q.delay ≤ limit with
  | false => rfl
  | true =>
    have hfetched : Host.fetch (m := StateM Machine) (Release.requestAddress q.repository) w₁ =
      (some (w₁.feed (Release.requestAddress q.repository)), w₁) := rfl
    rw [if_pos rfl, if_pos rfl, bind_run hfetched]
    exact congrArg (Monitor.started.finish ·) (noteEnd_result log q _ w₁)

lemma progressOn_cases (q : ReleaseQuery) (w : Machine) :
    progressOn q w = .cancelled ∨ ∃ found, progressOn q w = .ended found := by
  unfold progressOn
  split
  · exact Or.inr ⟨_, rfl⟩
  · exact Or.inl rfl

lemma progressOn_congr {ps : List Path} {q : ReleaseQuery} {w w' : Machine}
    (h : Touched ps w w') : progressOn q w' = progressOn q w := by
  rw [progressOn, progressOn, h.interrupt, h.feed]

/-- What is printed of a check whose values are known, or of one that has none. -/
def printed (w : Machine) : Except Unresolved ReleaseQuery → String
  | .error _ => ""
  | .ok q => ((progressOn q w).found?.map outcomeText).getD ""

lemma print_nothing (w : Machine) : Host.print (m := StateM Machine) "" w = ((), w) := by
  simp [Host.print]

/-- A check tells the log how it goes, and what it has found is all that it does besides. -/
theorem releaseCheck_run (w : Machine) :
    ∃ w', Touched log.file.toList w w' ∧
      releaseCheck (m := StateM Machine) repository current delay o log w =
        Host.print (m := StateM Machine)
          (printed w (resolve (m := StateM Machine) repository current delay o log w).1) w' := by
  have hresolved := touches_resolve repository current delay o log w
  cases hresolve : resolve (m := StateM Machine) repository current delay o log w with
  | mk result w₁ =>
    rw [hresolve] at hresolved
    rw [releaseCheck, bind_run hresolve]
    cases result with
    | error reason => exact ⟨_, hresolved.trans (log.touches_warn _ w₁), (print_nothing _).symm⟩
    | ok q =>
      have hwatched := hresolved.trans (touches_watch log q w₁)
      have hmonitor := watch_result log q w₁
      rw [progressOn_congr hresolved] at hmonitor
      cases hwatch : watch (m := StateM Machine) q log w₁ with
      | mk monitor w₂ =>
        rw [hwatch] at hwatched hmonitor
        obtain rfl : monitor = _ := hmonitor
        simp only [printed]
        rw [bind_run hwatch]
        -- only a check that has found something prints it
        obtain hcancelled | ⟨found, hended⟩ := progressOn_cases q w
        · rw [hcancelled]
          exact ⟨_, hwatched.trans (log.touches_info _ w₂), (print_nothing _).symm⟩
        · rw [hended]
          cases found with
          | none => exact ⟨w₂, hwatched, (print_nothing w₂).symm⟩
          | some outcome => exact ⟨w₂, hwatched, rfl⟩

lemma releaseCheck_files (w : Machine) :
    ChangedOnly (LedTo w.tree w.here log.file.toList) w.tree
      (releaseCheck (m := StateM Machine) repository current delay o log w).2.tree := by
  obtain ⟨w', htouched, hrun⟩ := releaseCheck_run repository current delay o log w
  rw [hrun]
  exact htouched.files

/--
A check prints what it has found and nothing else. If there is nothing to check, if the check fails
or if it is called off before it asks, it prints nothing at all.
-/
theorem releaseCheck_output (w : Machine) :
    (releaseCheck (m := StateM Machine) repository current delay o log w).2.output =
      w.output ++
        printed w (resolve (m := StateM Machine) repository current delay o log w).1 := by
  obtain ⟨w', htouched, hrun⟩ := releaseCheck_run repository current delay o log w
  rw [hrun]
  exact congrArg (· ++ _) htouched.output

end Machine

/--
There is nothing to check exactly if the repository that counts is missing or blank, or if no
version is given and none is found: there is no configuration that can be loaded, or its metadata
cannot be loaded or has no version. A check otherwise goes by the values that are given, and by
those of the configuration in place of the others. This is so on every host. With all values given
the host is not asked for anything, and the result is the same on every host in every state. In any
case the command succeeds, and on a machine it changes no file but the log.
-/
theorem release_check_resolved :
    (∀ {σ : Type} [Host (StateM σ)] (repository current : Option String) (delay : Option Nat)
      (o : Options) (log : Log) (d : σ),
      let s := sources repository current delay o d
      let result := (resolve (m := StateM σ) repository current delay o log d).1
      s.Resolves result ∧
      ((∃ reason, result = .error reason) ↔ ¬Filled s.effective ∨ s.Unversioned) ∧
      ∀ locales : Time.Locales,
        (perform (m := StateM σ) locales (.releaseCheck repository current delay) o log d).1 =
          .ok () ∧
        ∀ arguments, parse arguments = .ok (o, .releaseCheck repository current delay) →
          (run (m := StateM σ) locales arguments d).1 = 0) ∧
    (∀ (repository current : String) (delay : Nat), ∃ result,
      ∀ {σ : Type} [Host (StateM σ)] (o : Options) (log : Log) (d : σ),
        resolve (m := StateM σ) (some repository) (some current) (some delay) o log d =
          (result, d)) ∧
    ∀ (locales : Time.Locales) (repository current : Option String) (delay : Option Nat)
      (o : Options) (log : Log) (w : Machine),
      let checked :=
        perform (m := StateM Machine) locales (.releaseCheck repository current delay) o log w
      (o.loadConfig (m := StateM Machine) w).2 = w ∧
        ChangedOnly (LedTo w.tree w.here log.file.toList) w.tree checked.2.tree := by
  refine ⟨?_, fun repository current delay => ⟨_, resolve_given repository current delay⟩, ?_⟩
  · intro σ _ repository current delay o log d s result
    have hresolves : s.Resolves result := resolves_resolve repository current delay o log d
    exact ⟨hresolves, hresolves.exists_error_iff,
      fun locales => ⟨rfl, fun _ hparse => run_of_parse locales hparse d⟩⟩
  · intro locales repository current delay o log w checked
    exact ⟨loadConfig_run o w, releaseCheck_files repository current delay o log w⟩

/-- All values are configured; a blank repository that is given still counts. -/
theorem release_check_resolved_configured :
    let settings := "metadata.path=\"p\"\ntimestamp.output=\"t\"\n" ++
      "bundle=\x7bentry_points=[\"a\"],output=\"o\"\x7d\nmanifest.output=\"m\"\n" ++
      "manifest.sections=[]\nrelease.repository=\"a/b\"\n"
    let w : Machine := { tree := ⟨[(["fxpack.toml"], .file settings.toUTF8 none),
      (["p"], .file "\x7b\"version\":\"1.2\"\x7d".toUTF8 none)]⟩ }
    (resolve (m := StateM Machine) none none none {} {} w).1 = .ok ⟨"a/b", "1.2", 5⟩ ∧
      (∃ reason, (resolve (m := StateM Machine) (some " ") none none {} {} w).1 = .error reason) ∧
      (run (m := StateM Machine) {} ["release-check"] w).1 = 0 := by
  intro settings w
  have hquery : (resolve (m := StateM Machine) none none none {} {} w).1 =
      .ok ⟨"a/b", "1.2", 5⟩ := by decide +kernel
  obtain ⟨hresolved, -, -⟩ := release_check_resolved
  obtain ⟨-, hfails, -⟩ := hresolved (some " ") none none {} {} w
  obtain ⟨-, -, hends⟩ := hresolved none none none {} {} w
  obtain ⟨-, hcode⟩ := hends {}
  refine ⟨hquery, hfails.mpr (Or.inl ?_), hcode ["release-check"] (by decide)⟩
  exact fun hfilled => Text.filled_some_iff.mp hfilled (by decide)

end ResourceBuild.CommandLine
