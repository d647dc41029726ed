import Atools.Arun

/-!
# Sessions: building, linking and running

In a session applications are linked and run between the builds.  atest.cmd calls abuild.cmd when
there is no libaroma for its settings, so a session stands for a run of builds: `buildsOf` says which
builds a step stands for.  Linking leaves one more file in an out folder, and running leaves nothing;
the archives after a session are those of the builds it stands for (`session_archives`).
-/

namespace Atools

open Batch

/-! ### The steps of a session -/

/-- What is done in a repository in which applications are built and run as well. -/
inductive Work
  | build (a : Step)
  | atest (c : Option Token) (folder : Token) (ext : Str)
  | arun (args : List Str)

/-- One step. -/
def runWork (cmd : Interpreter) : Work → Shell → Shell
  | .build a, sh => runStep cmd a sh
  | .atest c folder ext, sh => atest cmd ext (argList c [folder]) sh
  | .arun args, sh => (arun cmd args sh).1

/-- There is a libaroma for the settings of an application. -/
def hasAroma (cmd : Interpreter) (c : Option Token) (folder : Token) (sh : Shell) : Bool :=
  sh.exist ((atestSettings cmd (argList c [folder]) sh).env.text "LIBAROMA_OUT" ++
    "\\libaroma.a".toList)

/-- The builds a step stands for. -/
def buildsOf (cmd : Interpreter) : Work → Shell → List Step
  | .build a, _ => [a]
  | .atest c folder _, sh => if hasAroma cmd c folder sh then [] else [.abuild none]
  | .arun _, _ => []

/-- What the scripts make in an out folder themselves. -/
def ownNames : List Str := [depsName, libaromaName, libsName, aromaName]

/-- An application with a name of its own, for a configuration the scripts can work with.  Where there is no
libaroma yet, abuild.cmd comes to the same settings whether atest.cmd calls it or not. -/
structure AtestFits (cmd : Interpreter) (c : Option Token) (folder : Token) (ext : Str)
    (sh : Shell) : Prop where
  switches : ∀ l ∈ configLines sh (cfgArg c), handsSwitch l.text = false
  complete : complete (loadedEnv cmd c sh)
  usable : Usable (loadedEnv cmd c sh)
  out : ∃ o, OutNamed (loadedEnv cmd c sh) o
  name : ∃ m ∉ ownNames, segs ((atestSettings cmd (argList c [folder]) sh).env.text "APP_NAME" ++
    ext) = [.down m]
  nested : NoAroma cmd c folder sh → CleanStepFits cmd (.abuild none) sh ∧
    SameSettings (loadedEnv cmd none sh) (nestedEnv cmd c sh)

/-- A step that fits the state it is taken in.  arun.cmd may be called in any way. -/
def WorkFits (cmd : Interpreter) : Work → Shell → Prop
  | .build a, sh => HereStepFits cmd a sh
  | .atest c folder ext, sh => AtestFits cmd c folder ext sh
  | .arun _, _ => True

/-! ### One more file in an out folder -/

theorem file_write_of_ne {d : Disk File} {p q : Path} {m n : Str} (x : File)
    (h : q = p → n ≠ m) : (d.write (p ++ [m]) x).file q n = d.file q n := by
  by_cases hq : q = p
  · subst hq
    rw [file_write_self, if_neg fun hcon => h rfl hcon.1]
  · rw [Disk.write_concat, Disk.file, Disk.folder_put_ne _ _ hq]; rfl

section Linked

variable {r : Path} {o m : Str}

/-- The files the scripts look at are what they were. -/
theorem file_linked (d : Disk File) (o' : Str) {n : Str} (hm : m ∉ ownNames) (hn : n ∈ ownNames) :
    (d.write (r ++ [o] ++ [m]) .other).file (r ++ [o']) n = d.file (r ++ [o']) n := by
  apply file_write_of_ne
  rintro _ rfl
  exact hm hn

theorem OutFolder.linked {d : Disk File} {o' : Str} (h : OutFolder d (r ++ [o']))
    (hm : m ∉ ownNames) : OutFolder (d.write (r ++ [o] ++ [m]) .other) (r ++ [o']) := by
  have harch : ∀ n ∈ ownNames, archivable d (r ++ [o'] ++ [n]) = true →
      archivable (d.write (r ++ [o] ++ [m]) .other) (r ++ [o'] ++ [n]) = true := by
    intro n hn harch
    rw [archivable, Bool.and_eq_true] at harch ⊢
    rw [Disk.isDir_write, Disk.fileAt_concat, file_linked d o' hm hn, ← Disk.fileAt_concat]
    exact harch
  refine ⟨?_, ?_, ?_, fun n => ?_, harch _ (by decide) h.deps, harch _ (by decide) h.libaroma⟩
  · have hne : r ≠ r ++ [o] := by simp
    rw [Disk.fileAt_concat, file_write_of_ne _ fun heq => absurd heq hne, ← Disk.fileAt_concat]
    exact h.folder
  · rw [file_linked d o' hm (by decide)]
    exact h.libs
  · rw [file_linked d o' hm (by decide)]
    exact h.aroma
  · have hne : r ++ [o'] ++ [libsName] ≠ r ++ [o] := by
      intro heq
      have hlen := congrArg List.length heq
      simp only [List.length_append, List.length_singleton] at hlen
      omega
    rw [file_write_of_ne _ fun heq => absurd heq hne]
    exact h.inLibs n

theorem Repository.linked {e : Env} {sh : Shell} (h : Repository r e sh) (hm : m ∉ ownNames) :
    Repository r e { sh with disk := sh.disk.write (r ++ [o] ++ [m]) .other } where
  cwd := h.cwd
  env := h.env
  home := (Disk.isDir_write _ _ r _).trans h.home
  libs l := (Disk.isDir_write _ _ _ _).trans (h.libs l)
  outs o' ho' := (h.outs o' ho').linked hm

theorem Recorded.linked {d : Disk File} {g : Archives} (h : Recorded r g d) (hm : m ∉ ownNames) :
    Recorded r g (d.write (r ++ [o] ++ [m]) .other) :=
  ⟨fun o' ho' => (h.holds o' ho').congr (file_linked d o' hm (by decide)), h.sources⟩

end Linked

/-! ### What atest.cmd does -/

/-- Settings under which libraries are built alike are complete together and have one out folder. -/
theorem noteOut_congr {env env' : Env} (h : SameBuild env env')
    (f : Option (List (Str × List Str)) → List (Str × List Str)) (g : Archives) :
    noteOut env' f g = noteOut env f g := by
  have htext : ∀ v : Str, settingVar v = true →
      fold v ≠ fold "LIBAROMA_PLATFORM_ANDROID".toList → env'.text v = env.text v :=
    fun v hv ha => Env.text_congr (h.get v hv ha)
  have hcomplete : complete env' ↔ complete env := by
    rw [complete, complete, htext "LIBAROMA_SOURCE" (by decide) (by decide),
      htext "LIBAROMA_PLATFORM" (by decide) (by decide)]
  have hfolder : outFolder env' = outFolder env := by
    rw [outFolder, outFolder, htext "LIBAROMA_OUT" (by decide) (by decide)]
  funext o
  simp only [noteOut, hcomplete, hfolder]

section Atest

variable {cmd : Interpreter} {r : Path} {e : Env} {sh inner : Shell} {c : Option Token}
  {folder : Token} {ext : Str}

/-- The state in which atest.cmd looks for libaroma. -/
structure Entered (cmd : Interpreter) (c : Option Token) (folder : Token) (sh inner : Shell) :
    Prop where
  settings : atestSettings cmd (argList c [folder]) sh = inner
  cwd : inner.cwd = sh.cwd
  disk : inner.disk = sh.disk
  sources : inner.sources = sh.sources
  env : SameSettings (loadedEnv cmd c sh) inner.env

theorem AtestFits.entered (hfit : AtestFits cmd c folder ext sh) :
    Entered cmd c folder sh (atestSettings cmd (argList c [folder]) sh) := by
  obtain ⟨start, env, es, heq, hstart, hset, _⟩ := atestSettings_eq cmd c folder sh
  have henv : SameSettings (loadedEnv cmd c sh) env :=
    (loadSettings_congr cmd (cfgArg c) hfit.switches hfit.complete hstart).trans hset
  rw [heq]
  exact ⟨heq, rfl, rfl, rfl, henv⟩

theorem Entered.repository (h : Entered cmd c folder sh inner) (hrepo : Repository r e sh) :
    Repository r inner.env inner := by
  obtain ⟨hcwd, _, hhome, hlibs, houts⟩ := hrepo
  rw [← h.disk] at hhome hlibs houts
  exact ⟨h.cwd.trans hcwd, rfl, hhome, hlibs, houts⟩

theorem Entered.sameOutside (h : Entered cmd c folder sh inner) :
    SameOutside r noFile sh { inner with env := sh.env } where
  cwd := h.cwd
  env := rfl
  isDir q _ := by
    show inner.disk.isDir q = _
    rw [h.disk]
  file q n _ _ := by
    show inner.disk.file q n = _
    rw [h.disk]

theorem Entered.lines (h : Entered cmd c folder sh inner) :
    configLines inner [] = configLines sh [] := by
  rw [configLines, configLines, h.cwd, h.disk]

theorem Entered.needAroma (h : Entered cmd c folder sh inner) : Atools.needAroma cmd inner =
    if hasAroma cmd c folder sh then inner else runStep cmd (.abuild none) inner := by
  rw [Atools.needAroma, hasAroma, h.settings, Shell.exist, h.cwd, h.disk, ← Shell.exist]
  rfl

/-- The nested call of abuild.cmd is a proper one, and it builds as one from outside would. -/
theorem Entered.nested (h : Entered cmd c folder sh inner) (hfit : AtestFits cmd c folder ext sh)
    (habsent : NoAroma cmd c folder sh) :
    CleanStepFits cmd (.abuild none) inner ∧
      SameSettings (loadedEnv cmd none sh) (loadedEnv cmd none inner) := by
  obtain ⟨⟨hplain, hclean⟩, hsame⟩ := hfit.nested habsent
  have hswitches : ∀ l ∈ configLines sh [], handsSwitch l.text = false := hplain.1.switches
  have hset : SameSettings (loadedEnv cmd none sh) (loadedEnv cmd none inner) := by
    refine hsame.trans ?_
    rw [loadedEnv, cfgArg_none, h.lines]
    exact loadSettings_sameSettings cmd [] hswitches h.env
  refine ⟨⟨⟨invoked_plain (by rw [h.lines]; exact hswitches), ?_, fun hcomplete => ?_⟩, ?_⟩, hset⟩
  · have husable := hplain.2.1
    rw [loadedEnv, loadedEnv, cfgArg_none, h.lines] at hset
    rw [loadedEnv, cfgArg_none] at husable
    rw [loadedEnv, cfgArg_none, h.lines]
    exact usable_of_loaded cmd [] hswitches hset husable
  · obtain ⟨o, hout⟩ := hplain.2.2 (hset.complete_iff.mp hcomplete)
    exact ⟨o, hset.outNamed hout⟩
  · intro c' hc'
    obtain rfl : none = c' := Step.abuild.inj hc'
    rw [CleanFiles, aromaFiles_congr hset, h.sources]
    exact hclean none rfl

/-- What the nested call is noted for is what a call from outside would be. -/
theorem Entered.notes (h : Entered cmd c folder sh inner)
    (hswitches : ∀ l ∈ configLines sh [], handsSwitch l.text = false)
    (hsame : SameSettings (loadedEnv cmd none sh) (loadedEnv cmd none inner))
    (g : Archives × Archives) :
    noteBoth cmd (.abuild none) inner g = noteBoth cmd (.abuild none) sh g := by
  rw [noteBoth, noteBoth, noteDeps, noteDeps, noteAroma, noteAroma, h.sources]
  by_cases hcomplete : complete (loadedEnv cmd none sh)
  · have hbuild : SameBuild (loadedEnv cmd none sh) (loadedEnv cmd none inner) := by
      rw [loadedEnv, loadedEnv, cfgArg_none, h.lines] at hsame ⊢
      exact sameBuild_of_loaded cmd [] hswitches hcomplete hsame
    simp only [noteOut_congr hbuild, hbuild.neededLibs, hbuild.archivedPairs, aromaFiles_congr hsame,
      aromaFlags_congr hsame hbuild.flags]
  · have hnot : ¬ complete (loadedEnv cmd none inner) :=
      fun hcon => hcomplete (hsame.complete_iff.mp hcon)
    simp only [noteOut_incomplete _ _ hcomplete, noteOut_incomplete _ _ hnot]

/-- An application that does not link leaves nothing. -/
theorem atest_of_not_links {args : List Str} {ready : Shell} (ext : Str)
    (hready : atestReady cmd args sh = ready) (hlinks : ¬ Links ready) (hcwd : ready.cwd = sh.cwd) :
    atest cmd ext args sh = { ready with env := sh.env } := by
  have hcond : (ready.exist (ready.env.text "LIBAROMA_OUT" ++ "\\libaroma.a".toList) &&
      ready.exist (ready.env.text "LIBAROMA_OUT" ++ "\\libadeps.a".toList)) = false := by
    rw [← Bool.not_eq_true, Bool.and_eq_true]
    exact hlinks
  rw [atest, hready]
  simp only [hcond, Bool.false_eq_true, if_false]
  rw [leave, ← hcwd, ite_self]

/-- **What atest.cmd leaves**: what abuild.cmd leaves if there was no libaroma, and at most one file
more, which is none of those the scripts make. -/
theorem atest_leaves (hrepo : Repository r e sh) (hfit : AtestFits cmd c folder ext sh) :
    ∃ inner mid d es, Entered cmd c folder sh inner ∧ needAroma cmd inner = mid ∧
      Repository r inner.env mid ∧
      atest cmd ext (argList c [folder]) sh = { mid with env := e, disk := d, log := mid.log ++ es } ∧
      (d = mid.disk ∨
        ∃ o m, outFolderName o ∧ m ∉ ownNames ∧ d = mid.disk.write (r ++ [o] ++ [m]) .other) := by
  have hentered := hfit.entered
  set inner := atestSettings cmd (argList c [folder]) sh with hinner
  have hstart := hentered.repository hrepo
  have hmid : Repository r inner.env (needAroma cmd inner) := by
    rw [hentered.needAroma]
    split
    · exact hstart
    · rename_i habsent
      exact hstart.step (hentered.nested hfit (Bool.eq_false_iff.mpr habsent)).1.1
  set mid := needAroma cmd inner with hmid'
  have hready : atestReady cmd (argList c [folder]) sh =
      mid.say (.buildingApp (mid.env.text "APP_NAME")) := rfl
  have hcwd : mid.cwd = sh.cwd := hmid.cwd.trans hrepo.cwd.symm
  by_cases hlinks : Links (mid.say (.buildingApp (mid.env.text "APP_NAME")))
  · obtain ⟨o, hout⟩ := hfit.out
    obtain ⟨m, hm, hname⟩ := hfit.name
    rw [← hinner, ← hmid.env] at hname
    have hnamed : OutNamed mid.env o := by
      rw [hmid.env]
      exact hentered.env.outNamed hout
    have htarget : resolve mid.cwd (mid.env.text "LIBAROMA_OUT" ++
        '\\' :: mid.env.text "APP_NAME" ++ ext) = r ++ [o] ++ [m] := by
      rw [List.append_assoc, List.cons_append, resolve_outFile hnamed _ hname, hmid.cwd]
    refine ⟨inner, mid, _, [.buildingApp (mid.env.text "APP_NAME")], hentered, rfl, hmid, ?_,
      Or.inr ⟨o, m, outFolderName_of_load hfit.complete hout, hm, rfl⟩⟩
    rw [atest_of_links ext hready hlinks hcwd, ← hrepo.env, ← htarget]
    rfl
  · refine ⟨inner, mid, mid.disk, [.buildingApp (mid.env.text "APP_NAME")], hentered, rfl, hmid,
      ?_, Or.inl rfl⟩
    rw [atest_of_not_links ext hready hlinks hcwd, ← hrepo.env]
    rfl

/-- atest.cmd comes back to the repository. -/
theorem AtestFits.repository (hfit : AtestFits cmd c folder ext sh) (h : Repository r e sh) :
    Repository r e (atest cmd ext (argList c [folder]) sh) := by
  obtain ⟨inner, mid, d, es, _, _, hmid, heq, hd⟩ := atest_leaves h hfit
  rw [heq]
  rcases hd with rfl | ⟨o, m, _, hm, rfl⟩
  · exact ⟨hmid.cwd, rfl, hmid.home, hmid.libs, hmid.outs⟩
  · have hlinked := hmid.linked (o := o) hm
    exact ⟨hlinked.cwd, rfl, hlinked.home, hlinked.libs, hlinked.outs⟩

end Atest

/-- Running leaves nothing. -/
theorem arun_fst (cmd : Interpreter) (args : List Str) (sh : Shell) :
    ∃ es, (arun cmd args sh).1 = { sh with log := sh.log ++ es } := by
  obtain ⟨env, es, heq, _⟩ := alibsSettings_eq cmd args sh
  refine ⟨es, ?_⟩
  show leave cmd sh (alibsSettings cmd args sh) = _
  rw [heq, leave]
  simp only [ite_self]

/-- Every step of a session comes back to the repository. -/
theorem WorkFits.repository {cmd : Interpreter} {r : Path} {e : Env} {w : Work} {sh : Shell}
    (hfit : WorkFits cmd w sh) (h : Repository r e sh) : Repository r e (runWork cmd w sh) := by
  cases w with
  | build a => exact h.step hfit.1.1
  | atest c folder ext => exact AtestFits.repository hfit h
  | arun args =>
    obtain ⟨es, heq⟩ := arun_fst cmd args sh
    rw [runWork, heq]
    exact ⟨h.cwd, h.env, h.home, h.libs, h.outs⟩

/-! ### A session and its builds -/

/-- The state of a session, the state of the builds it stands for, and the record of these, which is
right about the archives of the session. -/
structure Stands (r : Path) (e : Env) (s t : Shell) (g : Archives × Archives) : Prop where
  left : Repository r e s
  right : Repository r e t
  outside : SameOutside r noFile s t
  sources : t.sources = s.sources
  deps : Recorded r g.1 s.disk
  aroma : ∀ o, outFolderName o → ArchiveHolds s.disk (r ++ [o]) libaromaName (g.2 o)

section Stands

variable {cmd : Interpreter} {r : Path} {e : Env} {s t : Shell} {g : Archives × Archives}

theorem Stands.alike (h : Stands r e s t g) (o : Str) : Alike r e o s g t g :=
  ⟨h.left, h.right, h.outside, h.sources, rfl, rfl⟩

theorem Stands.notes (h : Stands r e s t g) {a : Step} (hfit : HereStepFits cmd a s) :
    noteBoth cmd a t g = noteBoth cmd a s g := by
  have hnotes := fun o => (h.alike o).notes hfit
  exact Prod.ext (funext fun o => (hnotes o).1) (funext fun o => (hnotes o).2)

/-- A build is made in both. -/
theorem Stands.build (h : Stands r e s t g) {a : Step} (hfit : HereStepFits cmd a s) :
    HereStepFits cmd a t ∧
      Stands r e (runStep cmd a s) (runStep cmd a t) (noteBoth cmd a t g) := by
  obtain ⟨hfit', hkeep⟩ := (h.alike []).keep hfit
  have heffect := runStep_effect h.left hfit.1.1
  rw [h.notes hfit]
  exact ⟨hfit', hkeep.left, hkeep.right, hkeep.outside, hkeep.sources, h.deps.effect heffect,
    aromaHolds_effect h.left h.aroma hfit.1.2 heffect⟩

/-- A linked application is missed by nothing. -/
theorem Stands.linked (h : Stands r e s t g) {d : Disk File} (log : List Event)
    (hd : d = s.disk ∨
      ∃ o m, outFolderName o ∧ m ∉ ownNames ∧ d = s.disk.write (r ++ [o] ++ [m]) .other) :
    Stands r e { s with disk := d, log := log } t g := by
  rcases hd with rfl | ⟨o, m, ho, hm, rfl⟩
  · exact ⟨⟨h.left.cwd, h.left.env, h.left.home, h.left.libs, h.left.outs⟩, h.right,
      ⟨h.outside.cwd, h.outside.env, h.outside.isDir, h.outside.file⟩, h.sources, h.deps, h.aroma⟩
  · have hrepo := h.left.linked (o := o) hm
    have hsame := (sameOutside_out s (r := r) ho m .other).symm.trans h.outside
    exact ⟨⟨hrepo.cwd, hrepo.env, hrepo.home, hrepo.libs, hrepo.outs⟩, h.right,
      ⟨hsame.cwd, hsame.env, hsame.isDir, hsame.file⟩, h.sources, h.deps.linked hm,
      fun o' ho' => (h.aroma o' ho').congr (file_linked s.disk o' hm (by decide))⟩

/-- libaroma is there already. -/
theorem Stands.entered (h : Stands r e s t g) {c : Option Token} {folder : Token} {inner : Shell}
    (hentered : Entered cmd c folder s inner) : Stands r e { inner with env := e } t g := by
  obtain ⟨hcwd, _, hhome, hlibs, houts⟩ := hentered.repository h.left
  have hsame : SameOutside r noFile s { inner with env := e } := by
    rw [← h.left.env]
    exact hentered.sameOutside
  have hdeps := h.deps
  have haroma := h.aroma
  rw [← hentered.disk] at hdeps haroma
  exact ⟨⟨hcwd, rfl, hhome, hlibs, houts⟩, h.right, hsame.symm.trans h.outside,
    h.sources.trans hentered.sources.symm, hdeps, haroma⟩

/-- The nested call of abuild.cmd stands for one from outside. -/
theorem Stands.nested (h : Stands r e s t g) {c : Option Token} {folder : Token} {ext : Str}
    {inner : Shell} (hentered : Entered cmd c folder s inner)
    (hfit : AtestFits cmd c folder ext s) (habsent : NoAroma cmd c folder s) :
    HereStepFits cmd (.abuild none) t ∧
      Stands r e { runStep cmd (.abuild none) inner with env := e } (runStep cmd (.abuild none) t)
        (noteBoth cmd (.abuild none) t g) := by
  obtain ⟨hclean, hset⟩ := hentered.nested hfit habsent
  have hplain : HereStepFits cmd (.abuild none) s :=
    ⟨(hfit.nested habsent).1, "config.txt".toList, by decide⟩
  obtain ⟨hfit', hkeep⟩ := (h.alike []).keep hplain
  have hstart := h.entered hentered
  have hinner := hentered.repository h.left
  have heffect := runStep_effect hinner hclean.1
  have hrepo := hinner.effect heffect
  have hsame := heffect.sameOutside fun c lines h => nomatch h
  have hright := (runStep_effect h.right hfit'.1.1).sameOutside fun c lines h => nomatch h
  have hnotes : noteBoth cmd (.abuild none) t g = noteBoth cmd (.abuild none) inner g :=
    (h.notes hplain).trans (hentered.notes hplain.1.1.1.switches hset g).symm
  rw [hnotes]
  refine ⟨hfit', ⟨hrepo.cwd, rfl, hrepo.home, hrepo.libs, hrepo.outs⟩, hkeep.right, ?_, ?_, ?_, ?_⟩
  · have hleft : SameOutside r noFile { inner with env := e }
        { runStep cmd (.abuild none) inner with env := e } :=
      ⟨hsame.cwd, rfl, hsame.isDir, hsame.file⟩
    exact (hleft.symm.trans hstart.outside).trans hright
  · have hsources := (runStep_effect h.right hfit'.1.1).sources fun t h => nomatch h
    exact hsources.trans (hstart.sources.trans (heffect.sources fun t h => nomatch h).symm)
  · have hdeps : Recorded r g.1 inner.disk := hstart.deps
    exact hdeps.effect heffect
  · have haroma := aromaHolds_effect hinner hstart.aroma hclean.2 heffect
    exact haroma

/-- **An application**, and the builds it stands for. -/
theorem Stands.atest (h : Stands r e s t g) {c : Option Token} {folder : Token} {ext : Str}
    (hfit : AtestFits cmd c folder ext s) :
    AllFit (runStep cmd) (HereStepFits cmd) (buildsOf cmd (.atest c folder ext) s) t ∧
      Stands r e (Atools.atest cmd ext (argList c [folder]) s)
        (runs (runStep cmd) (buildsOf cmd (.atest c folder ext) s) t)
        (records (runStep cmd) (noteBoth cmd) (buildsOf cmd (.atest c folder ext) s) t g) := by
  obtain ⟨inner, mid, d, es, hentered, hmid, _, heq, hd⟩ := atest_leaves h.left hfit
  rw [hentered.needAroma] at hmid
  rw [heq, buildsOf]
  cases haroma : hasAroma cmd c folder s with
  | true =>
    rw [haroma, if_pos rfl] at hmid
    subst hmid
    rw [if_pos rfl]
    exact ⟨trivial, (h.entered hentered).linked (inner.log ++ es) hd⟩
  | false =>
    rw [haroma, if_neg Bool.false_ne_true] at hmid
    subst hmid
    rw [if_neg Bool.false_ne_true]
    obtain ⟨hfit', hstands⟩ := h.nested hentered hfit haroma
    exact ⟨⟨hfit', trivial⟩, hstands.linked _ hd⟩

/-- **A step of a session** keeps it beside its builds. -/
theorem Stands.step (h : Stands r e s t g) {w : Work} (hfit : WorkFits cmd w s) :
    AllFit (runStep cmd) (HereStepFits cmd) (buildsOf cmd w s) t ∧
      Stands r e (runWork cmd w s) (runs (runStep cmd) (buildsOf cmd w s) t)
        (records (runStep cmd) (noteBoth cmd) (buildsOf cmd w s) t g) := by
  cases w with
  | build a =>
    obtain ⟨hfit', hstands⟩ := h.build hfit
    exact ⟨⟨hfit', trivial⟩, hstands⟩
  | atest c folder ext => exact h.atest hfit
  | arun args =>
    obtain ⟨es, heq⟩ := arun_fst cmd args s
    rw [runWork, heq]
    exact ⟨trivial, h.linked _ (Or.inl rfl)⟩

end Stands

/-- **Sessions and builds.**  Whatever is linked and run in between, a session leaves the archives of
the builds it stands for, which are proper ones, and outside the out folders it leaves what they
leave. -/
theorem session_archives {cmd : Interpreter} {r : Path} {e : Env} {sh sh' : Shell}
    {works : List Work} {steps : List Step} (h : Fresh r e sh)
    (hfit : AllFit (runWork cmd) (WorkFits cmd) works sh)
    (hrun : runs (runWork cmd) works sh = sh')
    (hsteps : standsFor (runWork cmd) (buildsOf cmd) works sh = steps) :
    AllFit (runStep cmd) (HereStepFits cmd) steps sh ∧
      SameOutside r noFile sh' (runs (runStep cmd) steps sh) ∧
      ∀ o, outFolderName o →
        SameArchive sh'.disk (runs (runStep cmd) steps sh).disk (r ++ [o]) depsName ∧
        SameArchive sh'.disk (runs (runStep cmd) steps sh).disk (r ++ [o]) libaromaName := by
  subst hrun hsteps
  have hstart : Stands r e sh sh (noArchives, noArchives) :=
    ⟨h.repository, h.repository, .refl r noFile sh, rfl,
      ⟨fun o ho => h.file ho depsName, fun o xs hxs => absurd hxs (Option.some_ne_none xs).symm⟩,
      fun o ho => h.file ho libaromaName⟩
  have hstep : ∀ w s t g, Stands r e s t g → WorkFits cmd w s →
      AllFit (runStep cmd) (HereStepFits cmd) (buildsOf cmd w s) t ∧
        Stands r e (runWork cmd w s) (runs (runStep cmd) (buildsOf cmd w s) t)
          (records (runStep cmd) (noteBoth cmd) (buildsOf cmd w s) t g) :=
    fun w s t g hrel hfits => hrel.step hfits
  obtain ⟨hbuilds, hend⟩ := related_of_standsFor hstep hstart hfit
  have hclean : ∀ a s, HereStepFits cmd a s → CleanStepFits cmd a s := fun a s hfits => hfits.1
  have hplain : ∀ a s, HereStepFits cmd a s → StepFits cmd a s := fun a s hfits => hfits.1.1
  have hdeps := hend.deps
  have haroma := hend.aroma
  rw [records_noteBoth] at hdeps haroma
  refine ⟨hbuilds, hend.outside, fun o ho => ⟨?_, ?_⟩⟩
  · exact (hdeps.holds o ho).same ((recorded_of_run h (hbuilds.mono hplain)).2.holds o ho)
  · exact (haroma o ho).same ((aromaRecorded_of_run h (hbuilds.mono hclean)).2 o ho)

theorem smallRepository_atestFits :
    AtestFits (.idle true) none demoFolder ".exe" smallRepository := by
  have hlines : ∀ l ∈ configLines smallRepository [], handsSwitch l.text = false :=
    smallRepository_fits.1.switches
  refine ⟨hlines, smallRepository_settings.1, smallRepository_usable, ⟨_, smallRepository_settings.2⟩,
    ⟨"demo.exe".toList, by decide, by decide +kernel⟩,
    fun _ => ⟨⟨smallRepository_fits, fun c hc => ?_⟩, ?_⟩⟩
  · obtain rfl : none = c := Step.abuild.inj hc
    exact smallRepository_clean
  · exact nestedEnv_none hlines smallRepository_toBuild.platform smallRepository_settings.1

/-- `atest.cmd demo` and `arun.cmd demo` stand for `abuild.cmd`. -/
theorem session_archives_demo :
    SameArchive
      (runs (runWork (.idle true)) [.atest none demoFolder ".exe", .arun ["demo".toList]]
        smallRepository).disk
      (runs (runStep (.idle true)) [.abuild none] smallRepository).disk
      (["atools".toList] ++ ["out-sdl_".toList]) libaromaName := by
  have habsent : hasAroma (.idle true) none demoFolder smallRepository = false :=
    smallRepository_toBuild.absent (.idle true)
  have hsteps : standsFor (runWork (.idle true)) (buildsOf (.idle true))
      [.atest none demoFolder ".exe", .arun ["demo".toList]] smallRepository = [.abuild none] := by
    rw [standsFor, buildsOf, habsent, if_neg Bool.false_ne_true, standsFor, buildsOf, standsFor]
    rfl
  have hfits : AllFit (runWork (.idle true)) (WorkFits (.idle true))
      [.atest none demoFolder ".exe", .arun ["demo".toList]] smallRepository :=
    ⟨smallRepository_atestFits, trivial, trivial⟩
  exact ((session_archives smallRepository_fresh hfits rfl hsteps).2.2 _
    (by rw [outFolderName]; decide)).2

end Atools
