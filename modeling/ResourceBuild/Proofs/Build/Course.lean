import Mathlib.Tactic.Lemma
import ResourceBuild.Build.Pipeline

/-!
# The course of a build

The stages of a build in the order in which they are run, up to the first one that fails. What a
build gives is what its course ends with, whatever each stage does and on whatever host.
-/

namespace ResourceBuild.Build

open Files (Path)

/-- What the stages of a build have made so far. -/
structure Made where
  document : Metadata := {}
  stamp : String := ""
  bundlePath : Option Path := none

def Made.report (made : Made) (c : Config) : Report :=
  ⟨c.metadataPath, made.document.version?, c.stampPath, made.stamp, c.manifestPath,
    made.bundlePath⟩

/-- A stage that was run. -/
structure Ran (σ : Type) where
  stage : Stage
  result : Except Error Made
  /-- What the work of the stage has left. -/
  left : σ
  /-- What there is once the log tells how the stage ended. -/
  after : σ

variable {σ α β : Type} [Host (StateM σ)]

/-- Runs a stage whose work makes something. -/
def Stage.ran (s : Stage) (log : Log) (work : Log → StateM σ (Except Error Made)) (d : σ) :
    Ran σ :=
  let staged := { log with stage := some s.name }
  let opened := s.opened (m := StateM σ) staged d
  let worked := work staged opened.2
  ⟨s, worked.1, worked.2, (s.closed (m := StateM σ) staged opened.1 worked.1 worked.2).2⟩

@[simp] lemma Stage.stage_ran (s : Stage) (log : Log)
    (work : Log → StateM σ (Except Error Made)) (d : σ) : (s.ran log work d).stage = s := rfl

namespace Order

def planned (o : Order) : List Stage :=
  if o.skipBundle then [.metadata, .stamp, .manifest] else Stage.all

/-- The work of a stage when some things are made already. -/
def work (o : Order) (bundler : Bundle.Bundler (StateM σ)) (made : Made) :
    Stage → Log → StateM σ (Except Error Made)
  | .metadata, _ => do
    let result ← Metadata.sync o.config.metadataPath o.version o.config.metadata.indent
    return (result.mapError Error.ofMetadata).map fun document => { made with document }
  | .stamp, _ => do
    return (← writeStamp o.format o.config.stampPath).map fun stamp => { made with stamp }
  | .manifest, _ => do
    return (← writeManifest o.plan.sections made.document o.config.manifestPath).map fun _ => made
  | .bundle, staged => do
    return (← bundler staged o.bundleRequest).map fun _ =>
      { made with bundlePath := some o.config.bundlePath }

/-- The course of some stages, of which none is run any more once one has failed. -/
def course (o : Order) (bundler : Bundle.Bundler (StateM σ)) (log : Log) :
    List Stage → Made → σ → List (Ran σ)
  | [], _, _ => []
  | s :: ss, made, d =>
    let r := s.ran log (o.work bundler made s) d
    r :: match r.result with
      | .ok made => o.course bundler log ss made r.after
      | .error _ => []

end Order

/-! ### Steps of a build -/

omit [Host (StateM σ)] in
/-- A program with a log goes on from where its first step has left it. -/
lemma logged_bind_run {x : StateT Log (StateM σ) α} {k : α → StateT Log (StateM σ) β} {a : α}
    {log log' : Log} {d d' : σ} (h : x.run log d = ((a, log'), d')) :
    (x >>= k).run log d = (k a).run log' d' := by
  change (k (x.run log d).1.1).run (x.run log d).1.2 (x.run log d).2 = _
  rw [h]

section Work

variable {x : Work (StateM σ) α} {k : α → Work (StateM σ) β} {log log' : Log} {d d' : σ}

omit [Host (StateM σ)] in
lemma bind_of_error {e : Error} (h : x.run.run log d = ((.error e, log'), d')) :
    (x >>= k).run.run log d = ((.error e, log'), d') := by
  rw [ExceptT.run_bind, logged_bind_run h]
  rfl

omit [Host (StateM σ)] in
lemma bind_of_ok {a : α} (h : x.run.run log d = ((.ok a, log'), d')) :
    (x >>= k).run.run log d = (k a).run.run log' d' := by
  rw [ExceptT.run_bind, logged_bind_run h]

/-- The log tells how a stage ended, and not what it has made. -/
lemma closed_map (s : Stage) (staged : Log) (started : Nat) (result : Except Error α)
    (f : α → β) : s.closed (m := StateM σ) staged started (result.map f) =
      s.closed (m := StateM σ) staged started result := by
  cases result <;> rfl

/-- Whether some steps of a build are a stage that was run. No stage is going on after it. -/
def Follows (x : Work (StateM σ) α) (f : α → Made) (log : Log) (d : σ) (r : Ran σ) : Prop :=
  (∃ e, r.result = .error e ∧ x.run.run log d = ((.error e, { log with stage := none }), r.after)) ∨
  ∃ a, r.result = .ok (f a) ∧ x.run.run log d = ((.ok a, { log with stage := none }), r.after)

lemma follows_run (s : Stage) (work : Log → StateM σ (Except Error α)) (f : α → Made) (log : Log)
    (d : σ) :
    Follows (s.run work) f log d (s.ran log (fun staged => do return (← work staged).map f) d) := by
  let staged := { log with stage := some s.name }
  let opened := s.opened (m := StateM σ) staged d
  let worked := work staged opened.2
  have hrun : (s.run work).run.run log d = ((worked.1, { log with stage := none }),
      (s.closed (m := StateM σ) staged opened.1 worked.1 worked.2).2) := rfl
  have hran : s.ran log (fun staged => do return (← work staged).map f) d =
      ⟨s, worked.1.map f, worked.2,
        (s.closed (m := StateM σ) staged opened.1 worked.1 worked.2).2⟩ :=
    congrArg (fun closed : StateM σ Unit => Ran.mk s (worked.1.map f) worked.2 (closed worked.2).2)
      (closed_map s staged opened.1 worked.1 f)
  rw [hran, Follows, hrun]
  cases worked.1 with
  | error e => exact Or.inl ⟨e, rfl, rfl⟩
  | ok a => exact Or.inr ⟨a, rfl, rfl⟩

section Follows

variable (o : Order) (bundler : Bundle.Bundler (StateM σ)) (made : Made) (log : Log) (d : σ)

lemma follows_syncMetadata :
    Follows o.syncMetadata (fun document => { made with document }) log d
      (Stage.metadata.ran log (o.work bundler made .metadata) d) :=
  follows_run .metadata _ _ log d

lemma follows_stampTime :
    Follows o.stampTime (fun stamp => { made with stamp }) log d
      (Stage.stamp.ran log (o.work bundler made .stamp) d) :=
  follows_run .stamp _ _ log d

lemma follows_listManifest :
    Follows (o.listManifest made.document) (fun _ => made) log d
      (Stage.manifest.ran log (o.work bundler made .manifest) d) :=
  follows_run .manifest _ _ log d

lemma follows_bundleSources (hskip : o.skipBundle = false) :
    Follows (o.bundleSources bundler) (fun bundlePath => { made with bundlePath }) log d
      (Stage.bundle.ran log (o.work bundler made .bundle) d) := by
  have hrun := follows_run .bundle (fun staged => bundler staged o.bundleRequest)
    (fun _ => { made with bundlePath := some o.config.bundlePath }) log d
  rw [Order.bundleSources, if_neg (by simp [hskip])]
  obtain ⟨e, hresult, hrun⟩ | ⟨_, hresult, hrun⟩ := hrun
  · exact Or.inl ⟨e, hresult, bind_of_error hrun⟩
  · exact Or.inr ⟨some o.config.bundlePath, hresult, bind_of_ok hrun⟩

end Follows

/-- How a course of stages ends: with what its last stage gives and leaves. -/
def ending (made : Made) (d : σ) (ran : List (Ran σ)) : Except Error Made × σ :=
  match ran.getLast? with
  | none => (.ok made, d)
  | some r => (r.result, r.after)

/-- A stage that failed ends the course. -/
lemma ending_of_error {o : Order} {bundler : Bundle.Bundler (StateM σ)} {s : Stage}
    {ss : List Stage} {made : Made} {e : Error}
    (h : (s.ran log (o.work bundler made s) d).result = .error e) :
    ending made d (o.course bundler log (s :: ss) made d) =
      (.error e, (s.ran log (o.work bundler made s) d).after) := by
  simp [Order.course, h, ending]

/-- After a stage that succeeded the course goes on. -/
lemma ending_of_ok {o : Order} {bundler : Bundle.Bundler (StateM σ)} {s : Stage}
    {ss : List Stage} {made made' : Made}
    (h : (s.ran log (o.work bundler made s) d).result = .ok made') :
    ending made d (o.course bundler log (s :: ss) made d) =
      ending made' (s.ran log (o.work bundler made s) d).after
        (o.course bundler log ss made' (s.ran log (o.work bundler made s) d).after) := by
  simp only [Order.course, h, ending, List.getLast?_cons]
  cases (o.course bundler log ss made' (s.ran log (o.work bundler made s) d).after).getLast? with
  | none => simp [h]
  | some r => rfl

/-- What a build gives when its stages have come to an end. -/
def Order.concluded (o : Order) (log : Log) :
    Except Error Made × σ → (Except Error Report × Log) × σ
  | (.error e, d) => ((.error e, log), d)
  | (.ok made, d) =>
    ((.ok (made.report o.config), log),
      if o.skipBundle then (log.info (m := StateM σ) "Skipping bundle stage" d).2 else d)

/-- A log that names no stage is as good for the course as any other. -/
lemma course_idle (o : Order) (bundler : Bundle.Bundler (StateM σ)) (log : Log)
    (ss : List Stage) (made : Made) (d : σ) :
    o.course bundler { log with stage := none } ss made d = o.course bundler log ss made d := by
  induction ss generalizing made d with
  | nil => rfl
  | cons s ss ih =>
    simp only [Order.course, ih]
    rfl

/-- Steps that are a stage, and go on like the course of the other stages, are like the course of
all of them. -/
lemma run_cons {o : Order} {bundler : Bundle.Bundler (StateM σ)} {s : Stage} {ss : List Stage}
    {made : Made} {x : Work (StateM σ) α} {k : α → Work (StateM σ) Report} {f : α → Made}
    {log idle : Log} (hidle : { log with stage := none } = idle)
    (hx : Follows x f log d (s.ran log (o.work bundler made s) d))
    (hk : ∀ a d', (k a).run.run idle d' =
      o.concluded idle (ending (f a) d' (o.course bundler idle ss (f a) d'))) :
    (x >>= k).run.run log d =
      o.concluded idle (ending made d (o.course bundler log (s :: ss) made d)) := by
  subst hidle
  obtain ⟨e, hresult, hrun⟩ | ⟨a, hresult, hrun⟩ := hx
  · rw [bind_of_error hrun, ending_of_error hresult]
    rfl
  · rw [bind_of_ok hrun, ending_of_ok hresult, hk, course_idle]

lemma planned_eq (o : Order) : o.planned =
    .metadata :: .stamp :: .manifest :: if o.skipBundle then [] else [.bundle] := by
  unfold Order.planned
  split <;> rfl

/-- The stages of a build give what the course of its stages ends with. -/
lemma stages_run (o : Order) (bundler : Bundle.Bundler (StateM σ)) (log : Log) (d : σ) :
    (o.stages bundler).run.run log d =
      o.concluded { log with stage := none }
        (ending {} d (o.course bundler log o.planned {} d)) := by
  rw [planned_eq]
  -- after a stage the log names none, so that the next one begins with the same log
  generalize hidle : { log with stage := none } = idle
  have hidle' : { idle with stage := none } = idle := by rw [← hidle]
  refine run_cons hidle (follows_syncMetadata o bundler {} log d) fun document d => ?_
  refine run_cons hidle' (follows_stampTime o bundler { document } idle d) fun stamp d => ?_
  refine run_cons hidle' (follows_listManifest o bundler { document, stamp } idle d) fun _ d => ?_
  cases hskip : o.skipBundle with
  | true =>
    rw [Order.bundleSources, if_pos hskip, if_pos rfl]
    change _ = o.concluded idle (.ok { document, stamp }, d)
    rw [Order.concluded, if_pos hskip]
    rfl
  | false =>
    refine run_cons hidle' (follows_bundleSources o bundler { document, stamp } idle d hskip)
      fun bundlePath d => ?_
    change _ = o.concluded idle (.ok { document, stamp, bundlePath }, d)
    rw [Order.concluded, if_neg (by simp [hskip])]
    rfl

end Work

/-! ### What the stages make -/

section Made

variable {o : Order} {bundler bundler' : Bundle.Bundler (StateM σ)} {s : Stage} {ss : List Stage}
  {made made' : Made} {log : Log} {d d' : σ} {r : Ran σ}

omit [Host (StateM σ)] in
lemma Follows.result_eq_ok {x : Work (StateM σ) α} {f : α → Made} (h : Follows x f log d r)
    (hr : r.result = .ok made) : ∃ a, made = f a := by
  obtain ⟨e, hresult, -⟩ | ⟨a, hresult, -⟩ := h
  · cases hresult.symm.trans hr
  · exact ⟨a, Except.ok.inj (hr.symm.trans hresult)⟩

/-- A stage makes one thing and keeps the others. -/
lemma result_keeps (h : (s.ran log (o.work bundler made s) d).result = .ok made') :
    (s ≠ .metadata → made'.document = made.document) ∧ (s ≠ .stamp → made'.stamp = made.stamp) ∧
      made'.bundlePath = if s = .bundle then some o.config.bundlePath else made.bundlePath := by
  cases s with
  | metadata =>
    obtain ⟨document, heq⟩ := (follows_syncMetadata o bundler made log d).result_eq_ok h
    simp [heq]
  | stamp =>
    obtain ⟨stamp, heq⟩ := (follows_stampTime o bundler made log d).result_eq_ok h
    simp [heq]
  | manifest =>
    obtain ⟨-, heq⟩ := (follows_listManifest o bundler made log d).result_eq_ok h
    simp [heq]
  | bundle =>
    obtain ⟨-, heq⟩ := (follows_run .bundle (fun staged => bundler staged o.bundleRequest) _ log
      d).result_eq_ok h
    simp [heq]

/-- After its first stage, a build goes by the same document. -/
lemma document_kept : ∀ s ∈ Stage.stamp :: .manifest :: if o.skipBundle then [] else [.bundle],
    ∀ made made' d, (s.ran log (o.work bundler made s) d).result = .ok made' →
      made'.document = made.document := by
  intro s hs made made' d h
  refine (result_keeps h).1 ?_
  rintro rfl
  split at hs <;> simp at hs

/-- The stages of a course are an initial segment of those that were to be run. -/
lemma stages_isPrefix (o : Order) (bundler : Bundle.Bundler (StateM σ)) (log : Log)
    (ss : List Stage) (made : Made) (d : σ) :
    (o.course bundler log ss made d).map (·.stage) <+: ss := by
  induction ss generalizing made d with
  | nil => exact List.prefix_rfl
  | cons s ss ih =>
    rw [Order.course, List.map_cons]
    refine List.cons_prefix_cons.mpr ⟨rfl, ?_⟩
    split
    · exact ih _ _
    · exact List.nil_prefix

/-- All stages but the last one of a course have succeeded. -/
lemma isOk_of_mem_dropLast (h : r ∈ (o.course bundler log ss made d).dropLast) :
    r.result.isOk = true := by
  induction ss generalizing made d with
  | nil => simp [Order.course] at h
  | cons s ss ih =>
    rw [Order.course] at h
    split at h
    · rename_i made' hresult
      cases hrest : o.course bundler log ss made' (s.ran log (o.work bundler made s) d).after with
      | nil => simp [hrest] at h
      | cons r' rs =>
        rw [hrest, List.dropLast_cons_cons, List.mem_cons] at h
        rcases h with rfl | h
        · simp [hresult, Except.isOk, Except.toBool]
        · exact ih (hrest ▸ h)
    · simp at h

/-- A course ends well exactly when all stages were run and succeeded. -/
lemma ending_isOk_iff (o : Order) (bundler : Bundle.Bundler (StateM σ)) (log : Log)
    (ss : List Stage) (made : Made) (d : σ) :
    (ending made d (o.course bundler log ss made d)).1.isOk = true ↔
      (o.course bundler log ss made d).map (·.stage) = ss ∧
        ∀ r ∈ o.course bundler log ss made d, r.result.isOk = true := by
  induction ss generalizing made d with
  | nil => simp [Order.course, ending, Except.isOk, Except.toBool]
  | cons s ss ih =>
    cases hresult : (s.ran log (o.work bundler made s) d).result with
    | error e =>
      rw [ending_of_error hresult]
      simp [Order.course, hresult, Except.isOk, Except.toBool]
    | ok made' =>
      rw [ending_of_ok hresult, ih]
      simp [Order.course, hresult, Except.isOk, Except.toBool]

/-- What every stage keeps holds of all that a course makes. -/
lemma course_kept {P : Made → Prop} (h : P made)
    (hkeep : ∀ s ∈ ss, ∀ made made' d, P made →
      (s.ran log (o.work bundler made s) d).result = .ok made' → P made') :
    (∀ r ∈ o.course bundler log ss made d, ∀ made', r.result = .ok made' → P made') ∧
      ∀ made', (ending made d (o.course bundler log ss made d)).1 = .ok made' → P made' := by
  -- for all that may be made before: the stages behind the first go on from what it has made
  induction ss generalizing made d with
  | nil =>
    refine ⟨by simp [Order.course], ?_⟩
    rintro _ ⟨⟩
    exact h
  | cons s ss ih =>
    cases hresult : (s.ran log (o.work bundler made s) d).result with
    | error e =>
      rw [ending_of_error hresult]
      simp [Order.course, hresult]
    | ok made' =>
      have hmade' : P made' := hkeep s List.mem_cons_self made made' d h hresult
      obtain ⟨hran, hending⟩ := ih (d := (s.ran log (o.work bundler made s) d).after) hmade'
        fun s hs => hkeep s (List.mem_cons_of_mem _ hs)
      rw [ending_of_ok hresult]
      refine ⟨?_, hending⟩
      simp only [Order.course, hresult, List.mem_cons, forall_eq_or_imp]
      refine ⟨?_, hran⟩
      rintro _ ⟨⟩
      exact hmade'

/-- What no stage changes is the same in all that a course makes. -/
lemma course_fixed {γ : Type} {g : Made → γ} (made : Made) (d : σ)
    (hkeep : ∀ s ∈ ss, ∀ made made' d,
      (s.ran log (o.work bundler made s) d).result = .ok made' → g made' = g made) :
    (∀ r ∈ o.course bundler log ss made d, ∀ made', r.result = .ok made' → g made' = g made) ∧
      ∀ made', (ending made d (o.course bundler log ss made d)).1 = .ok made' →
        g made' = g made :=
  course_kept (P := (g · = g made)) rfl fun s hs made made' d hmade h =>
    (hkeep s hs made made' d h).trans hmade

/-- What all stages but the first one keep is the same all along a course that ends well. -/
lemma course_agrees {γ : Type} {g : Made → γ} {final : Made}
    (hkeep : ∀ s' ∈ ss, ∀ made made' d,
      (s'.ran log (o.work bundler made s') d).result = .ok made' → g made' = g made)
    (hfinal : (ending made d (o.course bundler log (s :: ss) made d)).1 = .ok final) :
    ∀ r ∈ o.course bundler log (s :: ss) made d, ∀ made', r.result = .ok made' →
      g made' = g final := by
  cases hresult : (s.ran log (o.work bundler made s) d).result with
  | error e => rw [ending_of_error hresult] at hfinal; cases hfinal
  | ok first =>
    rw [ending_of_ok hresult] at hfinal
    obtain ⟨hran, hending⟩ := course_fixed first _ hkeep
    have hfirst : g final = g first := hending final hfinal
    simp only [Order.course, hresult, List.mem_cons, forall_eq_or_imp, hfirst]
    refine ⟨?_, hran⟩
    rintro _ ⟨⟩
    rfl

/-- Each stage of a course did its work on what was made before it. -/
lemma exists_ran_of_mem (h : r ∈ o.course bundler log ss made d) :
    ∃ made d, r = r.stage.ran log (o.work bundler made r.stage) d := by
  induction ss generalizing made d with
  | nil => simp [Order.course] at h
  | cons s ss ih =>
    rw [Order.course, List.mem_cons] at h
    rcases h with rfl | h
    · exact ⟨made, d, rfl⟩
    · split at h
      · exact ih h
      · cases h

/-- A bundler that is not called does not matter. -/
lemma course_congr (h : ∀ r ∈ o.course bundler log ss made d, r.stage ≠ .bundle) :
    o.course bundler' log ss made d = o.course bundler log ss made d := by
  induction ss generalizing made d with
  | nil => rfl
  | cons s ss ih =>
    -- no other stage asks the bundler
    have hwork : o.work bundler' made s = o.work bundler made s := by
      have hs : s ≠ .bundle := h _ List.mem_cons_self
      cases s <;> first | rfl | exact absurd rfl hs
    simp only [Order.course, hwork] at h ⊢
    cases hresult : (s.ran log (o.work bundler made s) d).result with
    | error e => rfl
    | ok made' =>
      simp only [hresult, List.mem_cons, forall_eq_or_imp] at h ⊢
      rw [ih h.2]

end Made

/-! ### Whole builds -/

section Whole

variable (o : Order) (bundler : Bundle.Bundler (StateM σ)) (log : Log) (d : σ)

def Order.ran : List (Ran σ) :=
  o.course bundler log o.planned {} (Host.ticks (m := StateM σ) d).2

def Order.ended : Except Error Made × σ :=
  ending {} (Host.ticks (m := StateM σ) d).2 (o.ran bundler log d)

/-- How a build tells that it came to its end. -/
def Order.finished (started : Nat) :
    (Except Error Report × Log) × σ → (Except Error Report × Log) × σ
  | ((.error e, log), d) => ((.error e, log), d)
  | ((.ok report, log), d) =>
    let ended := Host.ticks (m := StateM σ) d
    ((.ok report, log), (Host.complainLine (m := StateM σ)
      ("Finished in: " ++ Time.durationText (ended.1 - started)) ended.2).2)

/-- A build gives what its course ends with. -/
lemma carryOut_run :
    (o.carryOut bundler).run log d = Order.finished (Host.ticks (m := StateM σ) d).1
      (o.concluded { log with stage := none } (o.ended bundler log d)) := by
  have hticks : (liftM (Host.ticks : StateM σ Nat) : StateT Log (StateM σ) Nat).run log d =
      (((Host.ticks (m := StateM σ) d).1, log), (Host.ticks (m := StateM σ) d).2) := rfl
  rw [Order.ended, Order.ran, ← stages_run]
  refine (logged_bind_run hticks).trans ?_
  cases hrun : (o.stages bundler).run.run log (Host.ticks (m := StateM σ) d).2 with
  | mk ended d' =>
    obtain ⟨result, log'⟩ := ended
    refine (logged_bind_run hrun).trans ?_
    cases result with
    | error e => rfl
    | ok report => rfl

lemma carryOut_result :
    ((o.carryOut bundler).run log d).1 =
      ((o.ended bundler log d).1.map fun made => made.report o.config,
        { log with stage := none }) := by
  rw [carryOut_run]
  cases o.ended bundler log d with
  | mk result d' => cases result <;> rfl

/-- A build that failed leaves what the stage that failed has left. -/
lemma carryOut_left {e : Error} (h : (o.ended bundler log d).1 = .error e) :
    ((o.carryOut bundler).run log d).2 = (o.ended bundler log d).2 := by
  rw [carryOut_run]
  cases hended : o.ended bundler log d with
  | mk result d' =>
    rw [hended] at h
    cases h
    rfl

/-- What the stages of a build have made when all of them have succeeded. -/
structure Order.Makes (made : Made) : Prop where
  /-- It is what the last stage gives. -/
  last : ∃ r, (o.ran bundler log d).getLast? = some r ∧ r.result = .ok made
  /-- Every stage has gone by the same document. -/
  document : ∀ r ∈ o.ran bundler log d, ∀ made', r.result = .ok made' →
    made'.document = made.document
  /-- The time was written once. -/
  stamp : ∀ r ∈ o.ran bundler log d, r.stage ≠ .metadata → ∀ made', r.result = .ok made' →
    made'.stamp = made.stamp
  /-- There is a bundle if the stage that makes it was run. -/
  bundlePath : made.bundlePath =
    if .bundle ∈ (o.ran bundler log d).map (·.stage) then some o.config.bundlePath else none

/-- A build runs its stages in their order, until one of them fails. -/
structure Order.StopsAtFirstFailure : Prop where
  /-- What a build does is to run these stages, each on what the ones before it have left. -/
  runs : (o.carryOut bundler).run log d = Order.finished (Host.ticks (m := StateM σ) d).1
    (o.concluded { log with stage := none } (o.ended bundler log d))
  initial : (o.ran bundler log d).map (·.stage) <+: o.planned
  earlier : ∀ r ∈ (o.ran bundler log d).dropLast, r.result.isOk = true
  succeeds_iff : ((o.carryOut bundler).run log d).1.1.isOk = true ↔
    (o.ran bundler log d).map (·.stage) = o.planned ∧
      ∀ r ∈ o.ran bundler log d, r.result.isOk = true
  /-- An error is that of the last stage that was run, and nothing is done after it. -/
  fails : ∀ e, ((o.carryOut bundler).run log d).1.1 = .error e →
    ∃ r, (o.ran bundler log d).getLast? = some r ∧ r.result = .error e ∧
      ((o.carryOut bundler).run log d).2 = r.after
  reports : ∀ report, ((o.carryOut bundler).run log d).1.1 = .ok report →
    ∃ made, o.Makes bundler log d made ∧ report = made.report o.config
  /-- No stage is going on any more. -/
  idle : ((o.carryOut bundler).run log d).1.2 = { log with stage := none }
  /-- If the bundling is not reached, the bundler is not called. -/
  uncalled : (∀ r ∈ o.ran bundler log d, r.stage ≠ .bundle) →
    ∀ bundler' : Bundle.Bundler (StateM σ),
      (o.carryOut bundler').run log d = (o.carryOut bundler).run log d

variable {o bundler log d}

lemma makes_of_ended {made : Made}
    (h : (o.ended bundler log d).1 = .ok made) : o.Makes bundler log d made := by
  have hstages : (o.ran bundler log d).map (·.stage) = o.planned :=
    ((ending_isOk_iff o bundler log o.planned {} _).mp (congrArg Except.isOk h)).1
  -- there are stages in any plan, so the build ended with what the last one gave
  have hlast : ∃ r, (o.ran bundler log d).getLast? = some r ∧ r.result = .ok made := by
    unfold Order.ended ending at h
    split at h
    · rename_i hnone
      rw [List.getLast?_eq_none_iff.mp hnone, planned_eq] at hstages
      cases hstages
    · rename_i r hr
      exact ⟨r, hr, h⟩
  rw [Order.ended, Order.ran, planned_eq] at h
  refine ⟨hlast, ?_, ?_, ?_⟩
  · rw [Order.ran, planned_eq]
    exact course_agrees document_kept h
  · rw [Order.ran, planned_eq]
    intro r hr hstage
    rw [Order.course, List.mem_cons] at hr
    -- the stamp is made by the second stage, so look at what follows the first one
    rcases hr with rfl | hr
    · exact absurd rfl hstage
    split at hr
    · rename_i first hfirst
      rw [ending_of_ok hfirst] at h
      refine course_agrees (g := Made.stamp) (fun s hs made made' d hresult => ?_) h r hr
      refine (result_keeps hresult).2.1 ?_
      rintro rfl
      split at hs <;> simp at hs
    · cases hr
  · rw [hstages, planned_eq]
    -- the path of the bundle is only set by the bundling, which is the last stage if it is planned
    cases hskip : o.skipBundle with
    | true =>
      rw [hskip] at h
      refine (course_kept (P := (·.bundlePath = none)) rfl ?_).2 made h
      intro s hs made made' d hmade hresult
      rw [(result_keeps hresult).2.2, if_neg, hmade]
      rintro rfl
      simp at hs
    | false =>
      obtain ⟨r, hr, hresult⟩ := hlast
      have hstage : r.stage = .bundle := by
        have hmap := congrArg List.getLast? hstages
        rw [List.getLast?_map, hr, planned_eq, hskip] at hmap
        simpa using hmap
      obtain ⟨made', d', hran⟩ := exists_ran_of_mem (List.mem_of_getLast? hr)
      rw [hran] at hresult
      rw [(result_keeps hresult).2.2, if_pos hstage]
      rfl

/-- A build stops at the first stage that fails, whatever its stages do and on whatever host. -/
lemma stopsAtFirstFailure (o : Order) (bundler : Bundle.Bundler (StateM σ)) (log : Log) (d : σ) :
    o.StopsAtFirstFailure bundler log d where
  runs := carryOut_run o bundler log d
  initial := stages_isPrefix o bundler log o.planned {} _
  earlier _ := isOk_of_mem_dropLast
  succeeds_iff := by
    have hisOk : (o.ended bundler log d).1.isOk = true ↔ _ :=
      ending_isOk_iff o bundler log o.planned {} _
    rw [carryOut_result, ← Order.ran] at *
    rw [← hisOk]
    cases (o.ended bundler log d).1 <;> simp [Except.map, Except.isOk, Except.toBool]
  fails e he := by
    rw [carryOut_result] at he
    cases hresult : (o.ended bundler log d).1 with
    | ok made =>
      rw [hresult] at he
      cases he
    | error e' =>
      rw [hresult] at he
      cases he
      rw [carryOut_left _ _ _ _ hresult]
      -- an error cannot come from a course without stages, which ends well
      unfold Order.ended ending at hresult ⊢
      split at hresult
      · cases hresult
      · rename_i r hr
        exact ⟨r, hr, hresult, rfl⟩
  reports report hreport := by
    rw [carryOut_result] at hreport
    cases hresult : (o.ended bundler log d).1 with
    | error e =>
      rw [hresult] at hreport
      cases hreport
    | ok made =>
      rw [hresult] at hreport
      cases hreport
      exact ⟨made, makes_of_ended hresult, rfl⟩
  idle := by rw [carryOut_result]
  uncalled hnone bundler' := by
    rw [carryOut_run, carryOut_run, Order.ended, Order.ran, course_congr hnone]
    rfl

end Whole

end ResourceBuild.Build
