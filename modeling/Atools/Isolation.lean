import Atools.Dependencies
import Atools.Libaroma
import Atools.Outside

/-!
# Out folders do not meet

What the scripts leave in one out folder depends on what was built into that folder and on nothing
else: a run and the same run without everything built elsewhere lead to the same archives there
(`archives_isolated`).  The two runs are compared outside the out folders, where all settings are, and
by the records of the archives of the one out folder.
-/

namespace Atools

open Batch

/-- The settings a step builds with. -/
def Step.settings (cmd : Interpreter) : Step → Shell → Option Env
  | .alibs c names, sh => some (alibsSettings cmd (argList c names) sh).env
  | .abuild c, sh => some (loadedEnv cmd c sh)
  | .edit _ _, _ => none
  | .fetch _, _ => none

/-- The step builds, and not into the out folder `o`. -/
def buildsElsewhere (cmd : Interpreter) (o : Str) (a : Step) (sh : Shell) : Bool :=
  match a.settings cmd sh with
  | some env => outFolder env != some o
  | none => false

/-- A step whose configuration file lies next to the scripts and in which abuild.cmd meets clean names
only. -/
def HereStepFits (cmd : Interpreter) (a : Step) (sh : Shell) : Prop :=
  CleanStepFits cmd a sh ∧ a.Here

theorem noteOut_elsewhere {env : Env} {o : Str} (h : outFolder env ≠ some o)
    (f : Option (List (Str × List Str)) → List (Str × List Str)) (g : Archives) :
    noteOut env f g o = g o := if_neg fun hcon => h hcon.2

section Elsewhere

variable {cmd : Interpreter} {o : Str} {a : Step} {sh : Shell}

/-- What is built elsewhere is not noted here. -/
theorem noteDeps_elsewhere (h : buildsElsewhere cmd o a sh = true) (g : Archives) :
    noteDeps cmd a sh g o = g o := by
  cases a with
  | alibs c names =>
    rw [noteDeps]
    exact noteOut_elsewhere (bne_iff_ne.mp h) _ g
  | abuild c =>
    rw [noteDeps]
    exact noteOut_elsewhere (bne_iff_ne.mp h) _ g
  | edit c lines => exact absurd h Bool.false_ne_true
  | fetch t => exact absurd h Bool.false_ne_true

theorem noteAroma_elsewhere (h : buildsElsewhere cmd o a sh = true) (g : Archives) :
    noteAroma cmd a sh g o = g o := by
  cases a with
  | abuild c =>
    rw [noteAroma]
    exact noteOut_elsewhere (bne_iff_ne.mp h) _ g
  | alibs c names => rfl
  | edit c lines => rfl
  | fetch t => rfl

theorem buildsElsewhere_builds (h : buildsElsewhere cmd o a sh = true) :
    (∀ c lines, a ≠ .edit c lines) ∧ ∀ t, a ≠ .fetch t := by
  cases a with
  | edit c lines => exact absurd h Bool.false_ne_true
  | fetch t => exact absurd h Bool.false_ne_true
  | alibs c names => exact ⟨fun c lines h => (nomatch h), fun t h => (nomatch h)⟩
  | abuild c => exact ⟨fun c lines h => (nomatch h), fun t h => (nomatch h)⟩

end Elsewhere

/-- The state of two runs that have the same to do, and the record of one out folder. -/
structure Alike (r : Path) (e : Env) (o : Str) (s : Shell) (g : Archives × Archives) (s' : Shell)
    (g' : Archives × Archives) : Prop where
  left : Repository r e s
  right : Repository r e s'
  outside : SameOutside r noFile s s'
  sources : s'.sources = s.sources
  deps : g'.1 o = g.1 o
  aroma : g'.2 o = g.2 o

/-- Both records. -/
def noteBoth (cmd : Interpreter) (a : Step) (sh : Shell) (g : Archives × Archives) :
    Archives × Archives := (noteDeps cmd a sh g.1, noteAroma cmd a sh g.2)

theorem records_noteBoth (cmd : Interpreter) (steps : List Step) (sh : Shell)
    (g : Archives × Archives) : records (runStep cmd) (noteBoth cmd) steps sh g =
      (records (runStep cmd) (noteDeps cmd) steps sh g.1,
        records (runStep cmd) (noteAroma cmd) steps sh g.2) := by
  induction steps generalizing sh g with
  | nil => rfl
  | cons a as ih => exact ih _ _

section Alike

variable {cmd : Interpreter} {r : Path} {e : Env} {o : Str} {a : Step} {s s' : Shell}
  {g g' : Archives × Archives}

/-- A step that builds elsewhere is not missed. -/
theorem Alike.skip (h : Alike r e o s g s' g') (hfit : HereStepFits cmd a s)
    (hskip : buildsElsewhere cmd o a s = true) :
    Alike r e o (runStep cmd a s) (noteBoth cmd a s g) s' g' := by
  obtain ⟨hedit, hfetch⟩ := buildsElsewhere_builds hskip
  have heffect := runStep_effect h.left hfit.1.1
  refine ⟨h.left.step hfit.1.1, h.right, (heffect.sameOutside hedit).symm.trans h.outside,
    h.sources.trans (heffect.sources hfetch).symm, ?_, ?_⟩
  · exact h.deps.trans (noteDeps_elsewhere hskip g.1).symm
  · exact h.aroma.trans (noteAroma_elsewhere hskip g.2).symm

/-- What a step notes depends on what lies outside the out folders. -/
theorem Alike.notes (h : Alike r e o s g s' g') (hfit : HereStepFits cmd a s) :
    noteDeps cmd a s' g'.1 o = noteDeps cmd a s g.1 o ∧
      noteAroma cmd a s' g'.2 o = noteAroma cmd a s g.2 o := by
  have hnote : ∀ env f (g g' : Archives), g' o = g o →
      noteOut env f g' o = noteOut env f g o := by
    intro env f g g' hg
    rw [noteOut, noteOut, hg]
  cases a with
  | alibs c names =>
    obtain ⟨hinv, _, hnames, _⟩ := hfit.1.1
    refine ⟨?_, h.aroma⟩
    rw [noteDeps, noteDeps, h.outside.alibsSettings h.left.cwd hfit.2 hnames hinv]
    exact hnote _ _ _ _ h.deps
  | abuild c =>
    obtain ⟨n, hn⟩ : ConfigHere c := hfit.2
    have hloaded : loadedEnv cmd c s' = loadedEnv cmd c s :=
      h.outside.loadedEnv h.left.cwd hn id
    rw [noteDeps, noteDeps, noteAroma, noteAroma, hloaded, h.sources]
    exact ⟨hnote _ _ _ _ h.deps, hnote _ _ _ _ h.aroma⟩
  | edit c lines => exact ⟨h.deps, h.aroma⟩
  | fetch t => exact ⟨h.deps, h.aroma⟩

/-- Any other step fits both states and keeps them alike. -/
theorem Alike.keep (h : Alike r e o s g s' g') (hfit : HereStepFits cmd a s) :
    HereStepFits cmd a s' ∧
      Alike r e o (runStep cmd a s) (noteBoth cmd a s g) (runStep cmd a s')
        (noteBoth cmd a s' g') := by
  have hfits : StepFits cmd a s' := h.outside.stepFits h.left.cwd hfit.2 hfit.1.1
  have hclean : ∀ c, a = .abuild c → CleanFiles (loadedEnv cmd c s') s'.sources := by
    rintro c rfl
    obtain ⟨n, hn⟩ : ConfigHere c := hfit.2
    rw [h.outside.loadedEnv h.left.cwd hn id, h.sources]
    exact hfit.1.2 c rfl
  obtain ⟨hdeps, haroma⟩ := h.notes hfit
  refine ⟨⟨⟨hfits, hclean⟩, hfit.2⟩, h.left.step hfit.1.1, h.right.step hfits, ?_, ?_, hdeps,
    haroma⟩
  · exact h.outside.runStep h.left h.right hfit.1.1 hfits
  · cases a with
    | fetch t => rfl
    | edit c lines => exact h.sources
    | alibs c names =>
      rw [(runStep_effect h.left hfit.1.1).sources (fun t h => nomatch h),
        (runStep_effect h.right hfits).sources (fun t h => nomatch h)]
      exact h.sources
    | abuild c =>
      rw [(runStep_effect h.left hfit.1.1).sources (fun t h => nomatch h),
        (runStep_effect h.right hfits).sources (fun t h => nomatch h)]
      exact h.sources

end Alike

/-- **Isolation.**  Over every run, the archives in an out folder are those of the run without the
steps that build into other out folders. -/
theorem archives_isolated {cmd : Interpreter} {r : Path} {e : Env} {sh : Shell}
    {steps own : List Step} {o : Str} (h : Fresh r e sh) (ho : outFolderName o)
    (hfit : AllFit (runStep cmd) (HereStepFits cmd) steps sh)
    (hown : kept (runStep cmd) (buildsElsewhere cmd o) steps sh = own) :
    AllFit (runStep cmd) (HereStepFits cmd) own sh ∧
      SameArchive (runs (runStep cmd) steps sh).disk (runs (runStep cmd) own sh).disk (r ++ [o])
        depsName ∧
      SameArchive (runs (runStep cmd) steps sh).disk (runs (runStep cmd) own sh).disk (r ++ [o])
        libaromaName := by
  have hstart : Alike r e o sh (noArchives, noArchives) sh (noArchives, noArchives) :=
    ⟨h.repository, h.repository, .refl r noFile sh, rfl, rfl, rfl⟩
  have hskip : ∀ a s g s' g', Alike r e o s g s' g' → HereStepFits cmd a s →
      buildsElsewhere cmd o a s = true → Alike r e o (runStep cmd a s) (noteBoth cmd a s g) s' g' :=
    fun a s g s' g' hrel hfits hskip => hrel.skip hfits hskip
  have hkeep : ∀ a s g s' g', Alike r e o s g s' g' → HereStepFits cmd a s →
      buildsElsewhere cmd o a s = false → HereStepFits cmd a s' ∧
        Alike r e o (runStep cmd a s) (noteBoth cmd a s g) (runStep cmd a s') (noteBoth cmd a s' g') :=
    fun a s g s' g' hrel hfits _ => hrel.keep hfits
  obtain ⟨hfit', hend⟩ := related_of_kept hskip hkeep hstart hfit
  have hclean : ∀ a s, HereStepFits cmd a s → CleanStepFits cmd a s := fun a s hfits => hfits.1
  have hplain : ∀ a s, HereStepFits cmd a s → StepFits cmd a s := fun a s hfits => hfits.1.1
  rw [hown] at hfit' hend
  have hdeps : records (runStep cmd) (noteDeps cmd) own sh noArchives o =
      records (runStep cmd) (noteDeps cmd) steps sh noArchives o := by
    have hlast := hend.deps
    rw [records_noteBoth, records_noteBoth] at hlast
    exact hlast
  have haroma : records (runStep cmd) (noteAroma cmd) own sh noArchives o =
      records (runStep cmd) (noteAroma cmd) steps sh noArchives o := by
    have hlast := hend.aroma
    rw [records_noteBoth, records_noteBoth] at hlast
    exact hlast
  refine ⟨hfit', ?_, ?_⟩
  · have hleft := (recorded_of_run h (hfit.mono hplain)).2.holds o ho
    have hright := (recorded_of_run h (hfit'.mono hplain)).2.holds o ho
    rw [hdeps] at hright
    exact hleft.same hright
  · have hleft := (aromaRecorded_of_run h (hfit.mono hclean)).2 o ho
    have hright := (aromaRecorded_of_run h (hfit'.mono hclean)).2 o ho
    rw [haroma] at hright
    exact hleft.same hright

/-- The name of a configuration for Windows. -/
def winToken : Token := ⟨"win".toList, by decide, by decide⟩

/-- A repository with two configurations. -/
def twoConfigs : Shell :=
  freshRepository ["atools".toList]
    [("config.txt".toList, .text smallConfig), ("config-win.txt".toList, .text smallConfig)] smallTree

theorem twoConfigs_fresh : Fresh ["atools".toList] (fun _ => none) twoConfigs := by
  apply fresh_freshRepository
  intro w hw
  rw [outFolderName]
  rcases List.mem_cons.mp hw with rfl | hw
  · decide
  · rw [List.mem_singleton.mp hw]
    decide

/-- The settings of the two configurations. -/
theorem twoConfigs_settings :
    (complete (loadedEnv (.idle true) none twoConfigs) ∧
      OutNamed (loadedEnv (.idle true) none twoConfigs) "out-sdl_".toList) ∧
    complete (loadedEnv (.idle true) (some winToken) twoConfigs) ∧
      OutNamed (loadedEnv (.idle true) (some winToken) twoConfigs) "out-win_".toList := by
  decide +kernel

theorem twoConfigs_usable : Usable (loadedEnv (.idle true) none twoConfigs) ∧
    Usable (loadedEnv (.idle true) (some winToken) twoConfigs) := by
  decide +kernel

theorem twoConfigs_plain : HereStepFits (.idle true) (.abuild none) twoConfigs := by
  refine ⟨⟨⟨invoked_plain (by decide +kernel), twoConfigs_usable.1,
    fun _ => ⟨_, twoConfigs_settings.1.2⟩⟩, fun c hc => ?_⟩, "config.txt".toList, by decide⟩
  obtain rfl : none = c := Step.abuild.inj hc
  rw [CleanFiles]
  decide +kernel

theorem twoConfigs_win : HereStepFits (.idle true) (.abuild (some winToken)) twoConfigs := by
  refine ⟨⟨⟨⟨?_, fun h => absurd h (Option.some_ne_none _), fun h => absurd h (Option.some_ne_none _),
    by decide +kernel, fun _ => by decide +kernel⟩, twoConfigs_usable.2,
    fun _ => ⟨_, twoConfigs_settings.2.2⟩⟩, fun c hc => ?_⟩, "config-win.txt".toList, by decide⟩
  · intro t ht
    obtain rfl := Option.mem_some_iff.mp ht
    decide +kernel
  · obtain rfl : some winToken = c := Step.abuild.inj hc
    rw [CleanFiles]
    decide +kernel

/-- Building for Windows as well leaves the other libaroma.a as it would have been. -/
theorem archives_isolated_win :
    SameArchive
      (runs (runStep (.idle true)) [.abuild none, .abuild (some winToken)] twoConfigs).disk
      (runs (runStep (.idle true)) [.abuild none] twoConfigs).disk
      (["atools".toList] ++ ["out-sdl_".toList]) libaromaName := by
  have hrepo := twoConfigs_fresh.repository
  have heffect := runStep_effect hrepo twoConfigs_plain.1.1
  have hsame := heffect.sameOutside fun c lines h => nomatch h
  obtain ⟨hfit, hclean⟩ := twoConfigs_win.1
  have hloaded : loadedEnv (.idle true) (some winToken)
      (runStep (.idle true) (.abuild none) twoConfigs) =
      loadedEnv (.idle true) (some winToken) twoConfigs :=
    hsame.loadedEnv rfl (n := "config-win.txt".toList) (by decide) id
  have hsecond : HereStepFits (.idle true) (.abuild (some winToken))
      (runStep (.idle true) (.abuild none) twoConfigs) := by
    refine ⟨⟨hsame.stepFits rfl twoConfigs_win.2 hfit, fun c hc => ?_⟩, twoConfigs_win.2⟩
    obtain rfl : some winToken = c := Step.abuild.inj hc
    rw [hloaded, heffect.sources fun t h => nomatch h]
    exact hclean _ rfl
  have hown : kept (runStep (.idle true)) (buildsElsewhere (.idle true) "out-sdl_".toList)
      [.abuild none, .abuild (some winToken)] twoConfigs = [.abuild none] := by
    have hhere : buildsElsewhere (.idle true) "out-sdl_".toList (.abuild none) twoConfigs = false := by
      show (outFolder _ != _) = false
      rw [outFolder_of_named twoConfigs_settings.1.2, bne_self_eq_false]
    have hwin : buildsElsewhere (.idle true) "out-sdl_".toList (.abuild (some winToken))
        (runStep (.idle true) (.abuild none) twoConfigs) = true := by
      show (outFolder (loadedEnv _ _ _) != _) = true
      rw [hloaded, outFolder_of_named twoConfigs_settings.2.2]
      decide
    rw [kept, hhere, if_neg Bool.false_ne_true, kept, hwin, if_pos rfl, kept]
  have hfits : AllFit (runStep (.idle true)) (HereStepFits (.idle true))
      [.abuild none, .abuild (some winToken)] twoConfigs := ⟨twoConfigs_plain, hsecond, trivial⟩
  exact (archives_isolated twoConfigs_fresh (by rw [outFolderName]; decide) hfits hown).2.2

/-! ### What a run leaves alone -/

/-- **A run, outside the out folders.**  The scripts come back to the folder and the environment they
were called in; outside the out folders nothing has changed but the configuration files that were
edited; the out folders are fit for the next build; and every configuration that was not edited loads
the settings it loaded before. -/
theorem run_outside {cmd : Interpreter} {r : Path} {e : Env} {sh sh' : Shell} {steps : List Step}
    (h : Repository r e sh) (hfit : AllFit (runStep cmd) (StepFits cmd) steps sh)
    (hrun : runs (runStep cmd) steps sh = sh') :
    SameOutside r (fun n => ∃ a ∈ steps, a.edits n) sh sh' ∧
      (∀ o, outFolderName o → OutFolder sh'.disk (r ++ [o])) ∧
      ∀ c n, segs (configName (cfgArg c)) = [.down n] → (∀ a ∈ steps, ¬ a.edits n) →
        loadedEnv cmd c sh' = loadedEnv cmd c sh := by
  obtain ⟨hrepo, hsame⟩ := sameOutside_of_run h hfit
  rw [hrun] at hrepo hsame
  refine ⟨hsame, hrepo.outs, fun c n hn hkept => ?_⟩
  apply hsame.loadedEnv h.cwd hn
  intro ⟨a, ha, hedits⟩
  exact hkept a ha hedits

/-- After a build and an edit of the other configuration, `win` means what it meant. -/
theorem run_outside_win :
    loadedEnv (.idle true) (some winToken)
        (runs (runStep (.idle true)) [.abuild none, .edit none smallConfig] twoConfigs) =
      loadedEnv (.idle true) (some winToken) twoConfigs := by
  have hfits : AllFit (runStep (.idle true)) (StepFits (.idle true))
      [.abuild none, .edit none smallConfig] twoConfigs :=
    ⟨twoConfigs_plain.1.1, ⟨"config.txt".toList, by decide⟩, trivial⟩
  refine (run_outside twoConfigs_fresh.repository hfits rfl).2.2 _ "config-win.txt".toList
    (by decide) fun a ha => ?_
  rcases List.mem_cons.mp ha with rfl | ha
  · exact id
  · rw [List.mem_singleton.mp ha, Step.edits]
    decide

end Atools
