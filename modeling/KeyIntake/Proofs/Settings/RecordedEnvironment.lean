import KeyIntake.Proofs.Settings.Layered
/-!
# The environment that settings record

The environment that a run is in is named twice: by the variable that chooses the file of the
environment, and by the settings, which decide whether the run is one in production. The two names
have nothing to do with each other. What the settings record is what the highest layer says that
says anything about it, or else the default name, whichever file was layered.

## Main definitions

* `Settings.environmentFile` — the file that is layered for an environment.
* `Settings.RecordsEnvironment` — what the settings record, against the file that was layered.

## Main results

* `Settings.recordsEnvironment_of_load` — the environment that the settings of a run record.
* `Settings.production_not_recorded` — a run with the file of production that is not one in
  production.
-/

set_option relaxedAutoImplicit false
set_option autoImplicit false

namespace KeyIntake

/-- A file says something that has a property if the document in it has, and the empty table, which
stands for a file that is not there. -/
lemma FileTree.exists_holds_of {files : FileTree} {path : String} {p : Tree → Bool}
    (hempty : p (.table []) = true)
    (h : ((files.find? path).all fun f => (Toml.read? f.2).any p) = true) :
    ∃ t, files.Holds path t ∧ p t = true := by
  cases hfind : files.find? path with
  | none => exact ⟨_, .absent hfind, hempty⟩
  | some f =>
    rw [hfind, Option.all_some, Option.any_eq_true] at h
    obtain ⟨t, ht, hp⟩ := h
    exact ⟨t, .document hfind ht, hp⟩

namespace Settings

/-! ### Names of environments -/

/-- The key under which settings name the environment. -/
def environmentKey : String := "app_env"

/-- The file that is layered for an environment. -/
def environmentFile (directory name : String) : String := directory ++ "/" ++ name ++ ".toml"

/-- Different environments have different files. -/
lemma environmentFile_inj {directory a b : String} :
    environmentFile directory a = environmentFile directory b ↔ a = b := by
  constructor
  · intro h
    exact String.append_right_inj _ |>.mp (String.append_left_inj _ |>.mp h)
  · rintro rfl
    rfl

/-- A layer says nothing about the environment. -/
def IsSilent (t : Tree) : Prop := t.at? [environmentKey] = none

/-- The highest layer that says something about the environment says this. -/
def named? (layers : List Tree) : Option Tree :=
  layers.reverse.findSome? fun t => t.at? [environmentKey]

/-- Layers that say nothing say nothing together. -/
lemma named?_eq_none_iff {layers : List Tree} :
    named? layers = none ↔ ∀ t ∈ layers, IsSilent t := by
  rw [named?, List.findSome?_eq_none_iff]
  simp only [List.mem_reverse, IsSilent]

/-! ### What is recorded -/

variable {directory : String} {files : FileTree} {e : Environment} {general special : Tree}
  {s : Settings}

/-- The name of the environment is a scalar among the settings. -/
def environmentScalar : Scalar :=
  ⟨String, [⟨environmentKey, 1⟩], false, Tree.asText, Settings.environment⟩

/-- Settings that come of tables record what the highest of them says about the environment, which
is a text, and the default name if none says anything. -/
lemma ComeOf.environment {layers : List Tree} (h : ComeOf layers s)
    (htables : ∀ t ∈ layers, t.isTable = true) :
    (∀ t, named? layers = some t → t = .text s.environment) ∧
      (named? layers = none → s.environment = "development") := by
  have hmem : environmentScalar ∈ scalars := by
    simp only [scalars, List.mem_append]
    exact .inl (.inl (.inl (.inl (List.mem_cons_of_mem _ List.mem_cons_self))))
  have htakes := h.scalar environmentScalar hmem
  have hhighest := h.highest environmentScalar hmem fun t ht => ⟨htables t ht, fun _ _ => trivial⟩
  have hgiven : Tree.given layers environmentScalar.path = named? layers := hhighest
  rw [hgiven] at htakes
  constructor
  · intro t ht
    rw [ht] at htakes
    exact Tree.asText_eq_ok_iff.mp htakes
  · intro hnone
    rw [hnone] at htakes
    exact htakes.2

/-- **What settings record about the environment**, against the file that was layered for it. -/
structure RecordsEnvironment (directory : String) (e : Environment) (layers : List Tree)
    (s : Settings) : Prop where
  /-- If layers say something about the environment, the highest one that does says what is
  recorded. -/
  named : ∀ t, named? layers = some t → t = .text s.environment
  /-- If none does, the default name is recorded, whatever the variable says. -/
  silent : (∀ t ∈ layers, IsSilent t) → s.environment = "development"
  /-- Then the name by which the file was chosen is recorded iff it is the default one. -/
  chosen_iff : (∀ t ∈ layers, IsSilent t) →
    (s.environment = environmentName e ↔
      ∀ name ∈ e.get? "APP_ENV", name = "development")
  /-- Then the run is never one in production, though the file of production may be layered. -/
  production_iff : (∀ t ∈ layers, IsSilent t) → s.isProduction = false ∧
    (environmentFile directory (environmentName e) = environmentFile directory "production" ↔
      e.get? "APP_ENV" = some "production")

/-- **The environment that the settings of a run record** is what its layers say, not the one whose
file is among them.

**Proof sketch.** The name of the environment is a scalar like any other, so it has the value that
the highest layer gives for it, or its default. The variable that chooses the file is none of the
variables that hold settings. -/
theorem recordsEnvironment_of_load
    (hgeneral : files.Holds (directory ++ "/default.toml") general)
    (hspecial : files.Holds (environmentFile directory (environmentName e)) special)
    (hload : load directory files e = .ok s) :
    RecordsEnvironment directory e [general, special, e.settings] s := by
  have hcome := comeOf_of_load hgeneral hspecial hload
  have htables : ∀ t ∈ [general, special, e.settings], t.isTable = true := by
    simp [hgeneral.sorted, hspecial.sorted, e.sorted_settings]
  obtain ⟨hnamed, hdefault⟩ := hcome.environment htables
  have hsilent : (∀ t ∈ [general, special, e.settings], IsSilent t) →
      s.environment = "development" := by
    intro hnone
    exact hdefault (named?_eq_none_iff.mpr hnone)
  refine ⟨hnamed, hsilent, fun hnone => ?_, fun hnone => ⟨?_, ?_⟩⟩
  · rw [hsilent hnone, environmentName]
    cases e.get? "APP_ENV" with
    | none => simp
    | some name => simp [eq_comm]
  · rw [isProduction, hsilent hnone]
    decide
  · rw [environmentFile_inj, environmentName]
    cases e.get? "APP_ENV" with
    | none => decide
    | some name => simp

/-! ### A run with the file of production -/

/-- Files for all environments and for production, neither of which names an environment. -/
def silentFiles : FileTree where
  files := [(["config", "default.toml"], "app_name = \"app\"\n[vault]\nendpoint = \"http://v\"\n"),
    (["config", "production.toml"], "[selection]\nfail_on_error = true\n")]

/-- The environment of production. -/
def productionEnvironment : Environment where
  bindings := [("APP_ENV", "production")]

/-- The settings of a run with these files in this environment. -/
def productionSettings : Settings where
  name := "app"
  vault := { endpoint := "http://v" }
  selection := { failOnFaults := true }

/-- The file of production is chosen and layered, and no layer names an environment. -/
lemma load_production :
    ∃ general special, silentFiles.Holds ("config" ++ "/default.toml") general ∧
      silentFiles.Holds (environmentFile "config" (environmentName productionEnvironment))
        special ∧
      (∀ t ∈ [general, special, productionEnvironment.settings], IsSilent t) ∧
      load "config" silentFiles productionEnvironment = .ok productionSettings := by
  obtain ⟨general, hgeneral, hno⟩ : ∃ t, silentFiles.Holds ("config" ++ "/default.toml") t ∧
      (t.at? [environmentKey]).isNone = true := FileTree.exists_holds_of rfl (by decide +kernel)
  obtain ⟨special, hspecial, hno'⟩ : ∃ t, silentFiles.Holds
      (environmentFile "config" (environmentName productionEnvironment)) t ∧
        (t.at? [environmentKey]).isNone = true := FileTree.exists_holds_of rfl (by decide +kernel)
  have hvariables : (productionEnvironment.settings.at? [environmentKey]).isNone = true := by
    decide +kernel
  refine ⟨general, special, hgeneral, hspecial, ?_, Except.eq_ok_of_toOption (by decide +kernel)⟩
  simp only [List.forall_mem_cons, IsSilent]
  exact ⟨Option.isNone_iff_eq_none.mp hno, Option.isNone_iff_eq_none.mp hno',
    Option.isNone_iff_eq_none.mp hvariables, by simp⟩

/-- As no layer says anything about the environment, the default name is recorded. -/
theorem recordsEnvironment_production :
    ∃ general special, silentFiles.Holds ("config" ++ "/default.toml") general ∧
      silentFiles.Holds (environmentFile "config" (environmentName productionEnvironment))
        special ∧
      (∀ t ∈ [general, special, productionEnvironment.settings], IsSilent t) ∧
      load "config" silentFiles productionEnvironment = .ok productionSettings ∧
      RecordsEnvironment "config" productionEnvironment
        [general, special, productionEnvironment.settings] productionSettings ∧
      productionSettings.environment = "development" := by
  obtain ⟨general, special, hgeneral, hspecial, hsilent, hload⟩ := load_production
  have hrecords := recordsEnvironment_of_load hgeneral hspecial hload
  exact ⟨general, special, hgeneral, hspecial, hsilent, hload, hrecords, hrecords.silent hsilent⟩

/-- **A run with the file of production that is not one in production.** No layer says anything
about the environment, and what is recorded is not the name by which the file was chosen. -/
theorem production_not_recorded :
    environmentName productionEnvironment = "production" ∧
      (∃ general special, silentFiles.Holds ("config" ++ "/default.toml") general ∧
        silentFiles.Holds (environmentFile "config" "production") special ∧
        ∀ t ∈ [general, special, productionEnvironment.settings], IsSilent t) ∧
      ∃ s, load "config" silentFiles productionEnvironment = .ok s ∧
        s.selection.failOnFaults = true ∧ s.environment ≠ environmentName productionEnvironment ∧
        s.isProduction = false := by
  obtain ⟨general, special, hgeneral, hspecial, hsilent, hload⟩ := load_production
  refine ⟨by decide, ⟨general, special, hgeneral, hspecial, hsilent⟩, productionSettings, hload, ?_⟩
  decide

end Settings

end KeyIntake
