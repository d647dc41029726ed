import Atools.Session

/-!
# What runs at the end of a session

Linked applications stay: no script takes a program out of an out folder, so a name is taken there
after a session if it was before or if atest.cmd has linked to it in between
(`exists_after_session`).  This settles which program arun.cmd starts (`arun_after_session`): a
program for Windows hides one for the device for good.
-/

namespace Atools

open Batch

/-! ### Names in an out folder -/

section Names

variable {r : Path} {o m : Str} {d d' : Disk File}

theorem ne_ownName {n : Str} (hm : m ∉ ownNames) (hn : n ∈ ownNames) : m ≠ n := by
  rintro rfl
  exact hm hn

theorem not_below_other {o' : Str} (h : o' ≠ o) (m : Str) : ¬ r ++ [o'] <+: r ++ [o] ++ [m] := by
  intro hp
  rw [List.append_assoc, List.prefix_append_right_inj] at hp
  exact h (List.cons_prefix_cons.mp hp).1

/-- A change of other names, in this out folder or in another. -/
theorem existsAt_of_change {o' : Str} (hframe : ∀ q, ¬ r ++ [o'] <+: q → d'.folder q = d.folder q)
    (hfile : d'.file (r ++ [o']) m = d.file (r ++ [o']) m)
    (hdir : d'.isDir (r ++ [o'] ++ [m]) = d.isDir (r ++ [o'] ++ [m])) :
    d'.existsAt (r ++ [o] ++ [m]) = d.existsAt (r ++ [o] ++ [m]) := by
  rw [Disk.existsAt_concat, Disk.existsAt_concat]
  by_cases ho : o' = o
  · rw [← ho, hdir, hfile]
  · have hfolder : ¬ r ++ [o'] <+: r ++ [o] := by
      intro hp
      exact not_below_other ho m (hp.trans (List.prefix_append _ _))
    rw [Disk.isDir, Disk.file, hframe _ (not_below_other ho m), hframe _ hfolder]
    rfl

theorem DepsChange.existsAt {o' : Str} {ws : List (Str × Obj)} (h : DepsChange d d' r o' ws)
    (hm : m ∉ ownNames) : d'.existsAt (r ++ [o] ++ [m]) = d.existsAt (r ++ [o] ++ [m]) := by
  apply existsAt_of_change h.frame
  · exact h.files m (ne_ownName hm (by decide))
  · exact h.dirs m (ne_ownName hm (by decide))

theorem AromaChange.existsAt {o' : Str} (h : AromaChange d d' r o') (hm : m ∉ ownNames) :
    d'.existsAt (r ++ [o] ++ [m]) = d.existsAt (r ++ [o] ++ [m]) := by
  apply existsAt_of_change h.frame
  · exact h.files m (ne_ownName hm (by decide))
  · exact h.dirs m (ne_ownName hm (by decide))

theorem existsAt_write_of_ne {p q : Path} {n : Str} (x : File) (h : q = p → m ≠ n) :
    (d.write (p ++ [n]) x).existsAt (q ++ [m]) = d.existsAt (q ++ [m]) := by
  rw [Disk.existsAt_concat, Disk.existsAt_concat, Disk.isDir_write, file_write_of_ne x h]

/-- A link makes one name in one out folder. -/
theorem existsAt_linked {o₁ m₁ : Str} (hdir : d.isDir (r ++ [o₁]) = true) :
    (d.write (r ++ [o₁] ++ [m₁]) .other).existsAt (r ++ [o] ++ [m]) = true ↔
      d.existsAt (r ++ [o] ++ [m]) = true ∨ o = o₁ ∧ m = m₁ := by
  by_cases ho : o = o₁
  · rw [ho, Disk.existsAt_concat, Disk.existsAt_concat, exists_written hdir .other m,
      Bool.or_eq_true, decide_eq_true_iff, or_comm, eq_self, true_and]
  · have hother : r ++ [o] = r ++ [o₁] → m ≠ m₁ := by
      intro heq
      exact absurd (List.singleton_inj.mp (List.append_cancel_left heq)) ho
    rw [existsAt_write_of_ne .other hother]
    exact ⟨Or.inl, fun hor => hor.resolve_right fun hcon => ho hcon.1⟩

/-- **No build** makes or takes away a name that is none of the scripts' own. -/
theorem Effect.existsAt {cmd : Interpreter} {sh sh' : Shell} {a : Step} (he : Effect cmd r sh a sh')
    (hm : m ∉ ownNames) :
    sh'.disk.existsAt (r ++ [o] ++ [m]) = sh.disk.existsAt (r ++ [o] ++ [m]) := by
  cases he with
  | alibsStopped | abuildStopped | fetched => rfl
  | alibsBuilt c names o' d clock es _ _ _ _ hchange => exact hchange.existsAt hm
  | abuildBuilt c o' d₁ d clock es ls _ _ _ _ hready hchange =>
    refine (hchange.existsAt hm).trans ?_
    cases hready with
    | there _ heq => rw [heq]
    | made cfg env₂ env' _ _ _ hdeps => exact hdeps.existsAt hm
  | edited c lines n hn =>
    apply existsAt_write_of_ne
    intro heq
    exact absurd heq (by simp)

end Names

/-! ### What a step of a session brings about -/

/-- atest.cmd links an application to a name in an out folder. -/
structure LinksTo (cmd : Interpreter) (c : Option Token) (folder : Token) (ext : Str) (o m : Str)
    (sh : Shell) : Prop where
  links : Links (atestReady cmd (argList c [folder]) sh)
  out : OutNamed (atestReady cmd (argList c [folder]) sh).env o
  name : segs ((atestReady cmd (argList c [folder]) sh).env.text "APP_NAME" ++ ext) = [.down m]

/-- A step that links to a name in an out folder. -/
def Work.linksTo (cmd : Interpreter) (o m : Str) : Work → Shell → Prop
  | .build _, _ => False
  | .atest c folder ext, sh => LinksTo cmd c folder ext o m sh
  | .arun _, _ => False

section Step

variable {cmd : Interpreter} {r : Path} {e : Env} {sh : Shell} {c : Option Token} {folder : Token}
  {ext o m : Str}

/-- Before its link command atest.cmd changes nothing outside the out folders, and in them no name
that is none of the scripts' own. -/
theorem AtestFits.aroma (hfit : AtestFits cmd c folder ext sh) (h : Repository r e sh)
    {inner mid : Shell} (hinner : atestSettings cmd (argList c [folder]) sh = inner)
    (hmid : needAroma cmd inner = mid) :
    mid.cwd = r ∧ mid.env = inner.env ∧ SameOutside r noFile sh { mid with env := sh.env } ∧
      ∀ o m, m ∉ ownNames →
        mid.disk.existsAt (r ++ [o] ++ [m]) = sh.disk.existsAt (r ++ [o] ++ [m]) := by
  have hentered := hfit.entered
  rw [hinner] at hentered
  have hstart : SameOutside r noFile sh { inner with env := sh.env } := hentered.sameOutside
  rw [hentered.needAroma] at hmid
  rw [← hentered.disk]
  cases haroma : hasAroma cmd c folder sh with
  | true =>
    rw [haroma, if_pos rfl] at hmid
    subst hmid
    exact ⟨hentered.cwd.trans h.cwd, rfl, hstart, fun _ _ _ => rfl⟩
  | false =>
    rw [haroma, if_neg Bool.false_ne_true] at hmid
    have hrepo := hentered.repository h
    have heffect := runStep_effect hrepo (hentered.nested hfit haroma).1.1
    rw [hmid] at heffect
    have hsame := heffect.sameOutside fun c lines h => nomatch h
    have hbuild : SameOutside r noFile { inner with env := sh.env } { mid with env := sh.env } :=
      ⟨hsame.cwd, rfl, hsame.isDir, hsame.file⟩
    exact ⟨hsame.cwd.trans hrepo.cwd, hsame.env, hstart.trans hbuild,
      fun o m hm => heffect.existsAt hm⟩

/-- The settings say where an application is linked to. -/
theorem linksTo_iff {ready : Shell} {o₁ m₁ : Str}
    (hready : atestReady cmd (argList c [folder]) sh = ready) (hlinks : Links ready)
    (hout : OutNamed ready.env o₁) (hname : segs (ready.env.text "APP_NAME" ++ ext) = [.down m₁]) :
    LinksTo cmd c folder ext o m sh ↔ o = o₁ ∧ m = m₁ := by
  subst hready
  constructor
  · intro hcon
    have hout' := hout.2.1.symm.trans hcon.out.2.1
    have hname' := hname.symm.trans hcon.name
    exact ⟨(Seg.down.inj (List.singleton_inj.mp hout')).symm,
      (Seg.down.inj (List.singleton_inj.mp hname')).symm⟩
  · rintro ⟨rfl, rfl⟩
    exact ⟨hlinks, hout, hname⟩

/-- **What atest.cmd adds** to the names in an out folder is the one it links to. -/
theorem AtestFits.existsAt_iff (hfit : AtestFits cmd c folder ext sh) (h : Repository r e sh)
    (hm : m ∉ ownNames) :
    (atest cmd ext (argList c [folder]) sh).disk.existsAt (r ++ [o] ++ [m]) = true ↔
      sh.disk.existsAt (r ++ [o] ++ [m]) = true ∨ LinksTo cmd c folder ext o m sh := by
  obtain ⟨inner, hinner⟩ : ∃ inner, atestSettings cmd (argList c [folder]) sh = inner := ⟨_, rfl⟩
  obtain ⟨mid, hmid⟩ : ∃ mid, needAroma cmd inner = mid := ⟨_, rfl⟩
  obtain ⟨ready, hready⟩ : ∃ ready, atestReady cmd (argList c [folder]) sh = ready := ⟨_, rfl⟩
  obtain ⟨hcwd, henv, _, hexists⟩ := hfit.aroma h hinner hmid
  have hsay : ready = mid.say (.buildingApp (mid.env.text "APP_NAME")) := by
    rw [← hready, atestReady, hinner, hmid]
  have hdisk : ready.disk = mid.disk := by rw [hsay]; rfl
  have hhome : ready.cwd = r := by rw [hsay]; exact hcwd
  have hback : ready.cwd = sh.cwd := hhome.trans h.cwd.symm
  rw [← hexists o m hm, ← hdisk]
  by_cases hlinks : Links ready
  · obtain ⟨o₁, hout⟩ := hfit.out
    obtain ⟨m₁, _, hname⟩ := hfit.name
    have henv' : ready.env = inner.env := by rw [hsay]; exact henv
    have hnamed : OutNamed ready.env o₁ := by
      rw [henv', ← hinner]
      exact hfit.entered.env.outNamed hout
    rw [hinner, ← henv'] at hname
    have htarget : resolve ready.cwd (ready.env.text "LIBAROMA_OUT" ++
        '\\' :: ready.env.text "APP_NAME" ++ ext) = r ++ [o₁] ++ [m₁] := by
      rw [List.append_assoc, List.cons_append, resolve_outFile hnamed _ hname, hhome]
    have hdir : ready.disk.isDir (r ++ [o₁]) = true := by
      rw [← hhome]
      exact hlinks.isDir hnamed
    rw [atest_of_links ext hready hlinks hback, htarget, linksTo_iff hready hlinks hnamed hname]
    exact existsAt_linked hdir
  · have hnone : ¬ LinksTo cmd c folder ext o m sh := by
      intro hcon
      have hlinked := hcon.links
      rw [hready] at hlinked
      exact hlinks hlinked
    rw [atest_of_not_links ext hready hlinks hback]
    exact ⟨Or.inl, fun hor => hor.resolve_right hnone⟩

theorem WorkFits.existsAt_iff {w : Work} (hfit : WorkFits cmd w sh) (h : Repository r e sh)
    (hm : m ∉ ownNames) :
    (runWork cmd w sh).disk.existsAt (r ++ [o] ++ [m]) = true ↔
      sh.disk.existsAt (r ++ [o] ++ [m]) = true ∨ w.linksTo cmd o m sh := by
  cases w with
  | build a =>
    rw [runWork, (runStep_effect h hfit.1.1).existsAt hm, Work.linksTo, or_false]
  | atest c folder ext => exact AtestFits.existsAt_iff hfit h hm
  | arun args =>
    obtain ⟨es, heq⟩ := arun_fst cmd args sh
    rw [runWork, heq, Work.linksTo, or_false]

end Step

/-- **Programs stay.**  After a session there is something of a name in an out folder exactly when
there was before or some step has linked an application to it. -/
theorem exists_after_session {cmd : Interpreter} {r : Path} {e : Env} {sh : Shell}
    {works : List Work} {o m : Str} (h : Repository r e sh)
    (hfit : AllFit (runWork cmd) (WorkFits cmd) works sh) (hm : m ∉ ownNames) :
    (runs (runWork cmd) works sh).disk.existsAt (r ++ [o] ++ [m]) = true ↔
      sh.disk.existsAt (r ++ [o] ++ [m]) = true ∨
        Sometime (runWork cmd) (Work.linksTo cmd o m) works sh := by
  have hstep : ∀ w s, Repository r e s → WorkFits cmd w s → Repository r e (runWork cmd w s) ∧
      ((runWork cmd w s).disk.existsAt (r ++ [o] ++ [m]) = true ↔
        s.disk.existsAt (r ++ [o] ++ [m]) = true ∨ w.linksTo cmd o m s) :=
    fun w s hrepo hfits => ⟨hfits.repository hrepo, hfits.existsAt_iff hrepo hm⟩
  exact holds_iff_sometime (Q := fun s : Shell => s.disk.existsAt (r ++ [o] ++ [m]) = true) hstep h
    hfit

/-! ### What arun.cmd finds -/

/-- The file next to the scripts that a step of a session edits. -/
def Work.edits : Work → Str → Prop
  | .build a, n => a.edits n
  | .atest _ _ _, _ => False
  | .arun _, _ => False

section Outside

variable {cmd : Interpreter} {r : Path} {e : Env} {sh : Shell}

/-- **A step of a session** changes nothing outside the out folders but the file it edits. -/
theorem WorkFits.sameOutside {w : Work} (hfit : WorkFits cmd w sh) (h : Repository r e sh) :
    SameOutside r w.edits sh (runWork cmd w sh) := by
  have hfalse : ∀ n, noFile n → w.edits n := fun n hn => hn.elim
  cases w with
  | build a => exact StepFits.sameOutside hfit.1.1 h
  | atest c folder ext =>
    obtain ⟨inner, mid, d, es, hentered, hmid, _, heq, hd⟩ := atest_leaves h hfit
    obtain ⟨_, _, hsame, _⟩ := AtestFits.aroma hfit h hentered.settings hmid
    rw [h.env] at hsame
    refine SameOutside.mono ?_ hfalse
    rw [runWork, heq]
    rcases hd with rfl | ⟨o, m, ho, _, rfl⟩
    · exact ⟨hsame.cwd, hsame.env, hsame.isDir, hsame.file⟩
    · have hlinked := hsame.trans (sameOutside_out { mid with env := e } ho m .other)
      exact ⟨hlinked.cwd, hlinked.env, hlinked.isDir, hlinked.file⟩
  | arun args =>
    obtain ⟨es, heq⟩ := arun_fst cmd args sh
    rw [runWork, heq]
    exact ⟨rfl, rfl, fun _ _ => rfl, fun _ _ _ _ => rfl⟩

/-- A session that does not edit a file keeps it. -/
theorem session_outside {works : List Work} {n : Str} (h : Repository r e sh)
    (hfit : AllFit (runWork cmd) (WorkFits cmd) works sh) (hkept : ∀ w ∈ works, ¬ w.edits n) :
    Repository r e (runs (runWork cmd) works sh) ∧
      SameOutside r (· ≠ n) sh (runs (runWork cmd) works sh) := by
  induction works generalizing sh with
  | nil => exact ⟨h, .refl r _ sh⟩
  | cons w ws ih =>
    have hstep : SameOutside r (· ≠ n) sh (runWork cmd w sh) := by
      refine (hfit.1.sameOutside h).mono fun m hm heq => ?_
      rw [heq] at hm
      exact hkept w List.mem_cons_self hm
    obtain ⟨hrepo, hrest⟩ := ih (hfit.1.repository h) hfit.2 fun w' hw' =>
      hkept w' (List.mem_cons_of_mem w hw')
    exact ⟨hrepo, hstep.trans hrest⟩

end Outside

/-- The program that is started, by its name in the out folder. -/
theorem launched_iff {r : Path} {run : Shell} {o a x app : Str} (arg : Str)
    (hout : OutNamed run.env o) (hsep : ∀ d ∈ app, sep d = false) (ha : segs app = [.down a])
    (hx : segs (app ++ ".exe".toList) = [.down x]) :
    ((program (launch run app arg)).map (resolve r) = some (r ++ [o] ++ [x]) ↔
        run.exist (appFile run.env (app ++ ".exe".toList)) = true) ∧
      ((program (launch run app arg)).map (resolve r) = some (r ++ [o] ++ [a]) ↔
        run.exist (appFile run.env app) = true ∧
          ¬ run.exist (appFile run.env (app ++ ".exe".toList)) = true) := by
  have hne : r ++ [o] ++ [a] ≠ r ++ [o] ++ [x] := by
    intro heq
    obtain ⟨x', hx', hxa⟩ := segs_exe hsep ha
    have hxx : x = x' := Seg.down.inj (List.singleton_inj.mp (hx.symm.trans hx'))
    exact hxa (hxx.symm.trans (List.singleton_inj.mp (List.append_cancel_left heq)).symm)
  have hpath : ∀ s k, segs s = [.down k] → resolve r (appFile run.env s) = r ++ [o] ++ [k] :=
    fun s k hk => resolve_outFile hout r hk
  rw [program_launch, appFile_append]
  by_cases hwin : run.exist (appFile run.env (app ++ ".exe".toList)) = true
  · rw [if_pos hwin, Option.map_some, hpath _ x hx]
    refine ⟨iff_of_true rfl hwin, iff_of_false ?_ fun hcon => hcon.2 hwin⟩
    exact fun heq => hne (Option.some.inj heq).symm
  · rw [if_neg hwin]
    by_cases hdev : run.exist (appFile run.env app) = true
    · rw [if_pos hdev, Option.map_some, hpath _ a ha]
      refine ⟨iff_of_false ?_ hwin, iff_of_true rfl ⟨hdev, hwin⟩⟩
      exact fun heq => hne (Option.some.inj heq)
    · rw [if_neg hdev, Option.map_none]
      have hnone : ∀ q : Path, ¬ none = some q := fun q heq => Option.some_ne_none q heq.symm
      exact ⟨iff_of_false (hnone _) hwin, iff_of_false (hnone _) fun hcon => hdev hcon.1⟩

/-- There is something of a name in an out folder after a session. -/
def MadeIn (cmd : Interpreter) (r : Path) (o m : Str) (works : List Work) (sh : Shell) : Prop :=
  sh.disk.existsAt (r ++ [o] ++ [m]) = true ∨
    Sometime (runWork cmd) (Work.linksTo cmd o m) works sh

/-- **Which program runs** after a session that leaves the configuration alone.  It is the one for
Windows if there was one from the start or atest.cmd has ever linked one, and the one for the device
if there is one and none for Windows. -/
theorem arun_after_session {cmd : Interpreter} {r : Path} {e : Env} {sh sh' : Shell}
    {works : List Work} {c : Option Token} {app : Token} {n o a x : Str} (h : Repository r e sh)
    (hfit : AllFit (runWork cmd) (WorkFits cmd) works sh) (hkept : ∀ w ∈ works, ¬ w.edits n)
    (hrun : runs (runWork cmd) works sh = sh') (hn : segs (configName (cfgArg c)) = [.down n])
    (hsettings : FullSettings (loadedEnv cmd c sh) o) (hsep : ∀ d ∈ app.text, sep d = false)
    (ha : segs app.text = [.down a]) (hx : segs (app.text ++ ".exe".toList) = [.down x])
    (haown : a ∉ ownNames) (hxown : x ∉ ownNames) (hinv : Invoked sh' c [app]) :
    ((program (arun cmd (argList c [app]) sh').2).map (resolve r) = some (r ++ [o] ++ [x]) ↔
        MadeIn cmd r o x works sh) ∧
      ((program (arun cmd (argList c [app]) sh').2).map (resolve r) = some (r ++ [o] ++ [a]) ↔
        MadeIn cmd r o a works sh ∧ ¬ MadeIn cmd r o x works sh) := by
  obtain ⟨hrepo, hsame⟩ := session_outside h hfit hkept
  rw [hrun] at hrepo hsame
  -- arun.cmd loads the settings of the start
  have hloaded : loadedEnv cmd c sh' = loadedEnv cmd c sh :=
    hsame.loadedEnv h.cwd hn fun hne => hne rfl
  obtain ⟨env, es, harun, hset⟩ := arun_invoked cmd hinv (by rw [hloaded]; exact hsettings.complete)
  rw [hloaded] at hset
  have hnamed : OutNamed env o := hset.outNamed hsettings.out
  set run : Shell := { sh' with env := env, log := sh'.log ++ es } with hrun'
  have hexist : ∀ s k, segs s = [.down k] → k ∉ ownNames →
      (run.exist (appFile env s) = true ↔ MadeIn cmd r o k works sh) := by
    intro s k hk hown
    have hpath : resolve r (appFile env s) = r ++ [o] ++ [k] := resolve_outFile hnamed r hk
    rw [Shell.exist, show run.cwd = r from hrepo.cwd, hpath, MadeIn,
      ← exists_after_session h hfit hown, hrun]
  rw [harun, ← hexist _ a ha haown, ← hexist _ x hx hxown]
  exact launched_iff [] hnamed hsep ha hx

/-- `atest.cmd demo`, then `arun.cmd demo`: the program for Windows is run. -/
theorem arun_after_session_demo :
    (program (arun (.idle true) (argList none [demoFolder])
      (runs (runWork (.idle true)) [.atest none demoFolder ".exe"] smallRepository)).2).map
        (resolve ["atools".toList]) =
      some (["atools".toList] ++ ["out-sdl_".toList] ++ ["demo.exe".toList]) := by
  have hfits : AllFit (runWork (.idle true)) (WorkFits (.idle true))
      [.atest none demoFolder ".exe"] smallRepository := ⟨smallRepository_atestFits, trivial⟩
  have hkept : ∀ w ∈ [Work.atest none demoFolder ".exe"], ¬ w.edits "config.txt".toList := by
    intro w hw
    rw [List.mem_singleton.mp hw]
    exact id
  have hmade : MadeIn (.idle true) ["atools".toList] "out-sdl_".toList "demo.exe".toList
      [.atest none demoFolder ".exe"] smallRepository :=
    Or.inr (Or.inl ⟨smallRepository_links, smallRepository_target.1, smallRepository_target.2⟩)
  exact (arun_after_session (a := "demo".toList) smallRepository_fresh.repository hfits hkept rfl
    (show segs (configName (cfgArg none)) = [.down "config.txt".toList] by decide)
    ⟨smallRepository_settings.1, smallRepository_usable, smallRepository_settings.2⟩
    (by simp [demoFolder, sep]) (by decide) (by decide) (by decide) (by decide)
    smallRepository_invoked).1.mpr hmade

end Atools
