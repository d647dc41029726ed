import Atools.Atest
import Atools.Rebuild

/-!
# Calls of alibs.cmd

A call of alibs.cmd adds to libadeps.a what it is asked for and leaves the rest, so calls compose: what
the archive holds after some of them depends on which libraries they were for, not on how the names
were put in order, repeated, or split into calls (`alibs_calls_agree`).  After a call for the default
libraries abuild.cmd finds all it needs, whatever was there (`alibs_then_abuild`).
-/

namespace Atools

open Batch

section Calls

variable {cmd : Interpreter} {r : Path} {e : Env} {sh : Shell} {c : Option Token} {o : Str}

/-- **One call**, in terms of the settings abuild.cmd would load. -/
theorem alibs_change {names : List Token} (h : Repository r e sh)
    (hfit : StepFits cmd (.alibs c names) sh) (hcomplete : complete (loadedEnv cmd c sh))
    (hout : OutNamed (loadedEnv cmd c sh) o) {m : Str} :
    ((members (runStep cmd (.alibs c names) sh).disk (r ++ [o] ++ [depsName])).lookup m).map
        (fun x => (x.src, x.flags)) =
      (lastWrite m ((archivedPairs (loadedEnv cmd c sh)
        (calledLibs (loadedEnv cmd c sh) names)).map fun x => (objectName x.1, x))).or
      (((members sh.disk (r ++ [o] ++ [depsName])).lookup m).map fun x => (x.src, x.flags)) := by
  obtain ⟨hinv, _, hnames, _⟩ := hfit
  have hsame := hinv.sameSettings hcomplete
  have hbuild := hinv.sameBuild hcomplete
  obtain ⟨d, clock, es, heq, _, _, hchange⟩ := alibs_builds cmd h hinv hnames
    (hsame.complete_iff.mpr hcomplete) (hsame.outNamed hout)
  have hlast := hbuild.trans (alibsEnv_sameBuild cmd (argList c names) sh)
  rw [runStep, heq]
  show ((members d _).lookup m).map _ = _
  rw [hchange.members, hlast.calledLibs, ← calledLibs, Option.map_or, ← lastWrite_map m
    (fun x : Obj => (x.src, x.flags)), map_libWrites, hlast.archivedPairs]

theorem StepFits.outNamed {names : List Token} (hfit : StepFits cmd (.alibs c names) sh)
    (hcomplete : complete (loadedEnv cmd c sh)) : ∃ o, OutNamed (loadedEnv cmd c sh) o := by
  have hsame := hfit.1.sameSettings hcomplete
  obtain ⟨o, hout⟩ := hfit.2.2.2.2 (hsame.complete_iff.mpr hcomplete)
  exact ⟨o, hsame.symm.outNamed hout⟩

/-! ### Calls one after another -/

/-- Calls with one configuration. -/
def calls (c : Option Token) (names : List (List Token)) : List Step := names.map (.alibs c)

/-- What later calls see of the first one. -/
theorem after_call {ns : List Token} {names : List (List Token)} (h : Repository r e sh)
    (hhere : ConfigHere c) (hfit : ∀ ms ∈ ns :: names, StepFits cmd (.alibs c ms) sh) :
    SameOutside r noFile sh (runStep cmd (.alibs c ns) sh) ∧
      Repository r e (runStep cmd (.alibs c ns) sh) ∧
      (∀ ms ∈ names, StepFits cmd (.alibs c ms) (runStep cmd (.alibs c ns) sh)) ∧
      loadedEnv cmd c (runStep cmd (.alibs c ns) sh) = loadedEnv cmd c sh := by
  have hfirst := hfit ns List.mem_cons_self
  have hsame := (runStep_effect h hfirst).sameOutside fun c lines h => nomatch h
  obtain ⟨n, hn⟩ := hhere
  refine ⟨hsame, h.step hfirst, fun ms hms => ?_, hsame.loadedEnv h.cwd hn id⟩
  exact hsame.stepFits h.cwd ⟨n, hn⟩ (hfit ms (List.mem_cons_of_mem ns hms))

/-- Calls change nothing outside the out folders. -/
theorem after_calls {names : List (List Token)} (h : Repository r e sh) (hhere : ConfigHere c)
    (hfit : ∀ ns ∈ names, StepFits cmd (.alibs c ns) sh) :
    Repository r e (runs (runStep cmd) (calls c names) sh) ∧
      SameOutside r noFile sh (runs (runStep cmd) (calls c names) sh) := by
  induction names generalizing sh with
  | nil => exact ⟨h, .refl r noFile sh⟩
  | cons ns names ih =>
    obtain ⟨hsame, hrepo, hnext, _⟩ := after_call h hhere hfit
    obtain ⟨hlast, hrest⟩ := ih hrepo hnext
    exact ⟨hlast, hsame.trans hrest⟩

theorem archivedPairs_append (env : Env) (ls ls' : List Lib) :
    archivedPairs env (ls ++ ls') = archivedPairs env ls ++ archivedPairs env ls' :=
  List.flatMap_append

/-- **A run of calls**: the archive has what they were for, over what it had. -/
theorem members_calls {names : List (List Token)} (h : Repository r e sh) (hhere : ConfigHere c)
    (hfit : ∀ ns ∈ names, StepFits cmd (.alibs c ns) sh) (hcomplete : complete (loadedEnv cmd c sh))
    (hout : OutNamed (loadedEnv cmd c sh) o) (m : Str) :
    ((members (runs (runStep cmd) (calls c names) sh).disk (r ++ [o] ++ [depsName])).lookup m).map
        (fun x => (x.src, x.flags)) =
      (lastWrite m ((archivedPairs (loadedEnv cmd c sh)
        (names.flatMap (calledLibs (loadedEnv cmd c sh)))).map fun x => (objectName x.1, x))).or
      (((members sh.disk (r ++ [o] ++ [depsName])).lookup m).map fun x => (x.src, x.flags)) := by
  induction names generalizing sh with
  | nil => rfl
  | cons ns names ih =>
    have hfirst := hfit ns List.mem_cons_self
    obtain ⟨_, hrepo, hnext, hloaded⟩ := after_call h hhere hfit
    have hrest := ih hrepo hnext (by rw [hloaded]; exact hcomplete) (by rw [hloaded]; exact hout)
    rw [hloaded, alibs_change h hfirst hcomplete hout] at hrest
    rw [calls, List.map_cons, runs, ← calls, hrest, List.flatMap_cons, archivedPairs_append,
      List.map_append, lastWrite_append, Option.or_assoc]

/-- The other out folders are left alone. -/
theorem unchanged_calls {names : List (List Token)} (h : Repository r e sh) (hhere : ConfigHere c)
    (hfit : ∀ ns ∈ names, StepFits cmd (.alibs c ns) sh) (hcomplete : complete (loadedEnv cmd c sh))
    (hout : OutNamed (loadedEnv cmd c sh) o) {o' : Str} (hne : o' ≠ o) :
    Unchanged sh.disk (runs (runStep cmd) (calls c names) sh).disk r o' := by
  induction names generalizing sh with
  | nil => exact ⟨rfl, fun _ _ => rfl⟩
  | cons ns names ih =>
    have hfirst := hfit ns List.mem_cons_self
    obtain ⟨_, hrepo, hnext, hloaded⟩ := after_call h hhere hfit
    have hrest := ih hrepo hnext (by rw [hloaded]; exact hcomplete) (by rw [hloaded]; exact hout)
    have hsame := hfirst.1.sameSettings hcomplete
    have hcall := (alibs_archive h hfirst rfl (hsame.complete_iff.mpr hcomplete) rfl).2.2 o' (by
      rw [outFolder_of_named (hsame.outNamed hout)]
      exact fun heq => hne (Option.some.inj heq).symm)
    exact ⟨hrest.self.trans hcall.self, fun q hq => (hrest.below q hq).trans (hcall.below q hq)⟩

/-- Every object name stands for one source, compiled with one set of flags. -/
theorem archivedPairs_value {env : Env} {ls : List Lib} {k : Str} {x y : Str × List Str}
    (hx : (k, x) ∈ (archivedPairs env ls).map fun x => (objectName x.1, x))
    (hy : (k, y) ∈ (archivedPairs env ls).map fun x => (objectName x.1, x)) : x = y := by
  obtain ⟨⟨s, f⟩, hs, hkx⟩ := List.mem_map.mp hx
  obtain ⟨⟨s', f'⟩, hs', hky⟩ := List.mem_map.mp hy
  rw [Prod.mk.injEq] at hkx hky
  obtain ⟨hk, rfl⟩ := hkx
  obtain ⟨hk', rfl⟩ := hky
  obtain ⟨l, _, hl, rfl⟩ := mem_archivedPairs.mp hs
  obtain ⟨l', _, hl', rfl⟩ := mem_archivedPairs.mp hs'
  obtain rfl : s = s' := objectName_inj (mem_allSources hl) (mem_allSources hl') (hk.trans hk'.symm)
  obtain rfl : l = l' := Lib.eq_of_mem_sources hl hl'
  rfl

/-- The archive depends on which libraries are built, not on their order. -/
theorem lastWrite_archivedPairs {env : Env} {ls ls' : List Lib} (hsame : ∀ l, l ∈ ls ↔ l ∈ ls')
    (m : Str) :
    lastWrite m ((archivedPairs env ls).map fun x => (objectName x.1, x)) =
      lastWrite m ((archivedPairs env ls').map fun x => (objectName x.1, x)) := by
  have hpairs : ∀ x : Str × List Str, x ∈ archivedPairs env ls ↔ x ∈ archivedPairs env ls' := by
    rintro ⟨s, f⟩
    simp only [mem_archivedPairs, hsame]
  apply lastWrite_congr
  · intro w
    simp only [List.mem_map, hpairs]
  · exact fun k x y => archivedPairs_value

/-- **Order, repetition and splitting do not matter.**  Two series of calls with one configuration that
are for the same libraries leave the same sources with the same flags in every libadeps.a. -/
theorem alibs_calls_agree {names names' : List (List Token)} (h : Repository r e sh)
    (hhere : ConfigHere c) (hcomplete : complete (loadedEnv cmd c sh))
    (hfit : ∀ ns ∈ names, StepFits cmd (.alibs c ns) sh)
    (hfit' : ∀ ns ∈ names', StepFits cmd (.alibs c ns) sh)
    (hlibs : ∀ l, l ∈ names.flatMap (calledLibs (loadedEnv cmd c sh)) ↔
      l ∈ names'.flatMap (calledLibs (loadedEnv cmd c sh))) (o m : Str) :
    ((members (runs (runStep cmd) (calls c names) sh).disk (r ++ [o] ++ [depsName])).lookup m).map
        (fun x => (x.src, x.flags)) =
      ((members (runs (runStep cmd) (calls c names') sh).disk
        (r ++ [o] ++ [depsName])).lookup m).map fun x => (x.src, x.flags) := by
  have hfolder : (names = [] ∧ names' = []) ∨ ∃ o, OutNamed (loadedEnv cmd c sh) o := by
    cases names with
    | cons ns names => exact Or.inr ((hfit ns List.mem_cons_self).outNamed hcomplete)
    | nil =>
      cases names' with
      | cons ns names => exact Or.inr ((hfit' ns List.mem_cons_self).outNamed hcomplete)
      | nil => exact Or.inl ⟨rfl, rfl⟩
  obtain ⟨rfl, rfl⟩ | ⟨o', hout⟩ := hfolder
  · rfl
  by_cases heq : o = o'
  · subst heq
    rw [members_calls h hhere hfit hcomplete hout, members_calls h hhere hfit' hcomplete hout,
      lastWrite_archivedPairs hlibs]
  · have hfile := (unchanged_calls h hhere hfit hcomplete hout heq).file List.prefix_rfl depsName
    have hfile' := (unchanged_calls h hhere hfit' hcomplete hout heq).file List.prefix_rfl depsName
    rw [members, members, Disk.fileAt_concat, Disk.fileAt_concat, hfile, hfile']

/-! ### All that is needed -/

/-- abuild.cmd leaves a libadeps.a alone. -/
theorem abuild_keeps_deps (h : Repository r e sh) (hfit : StepFits cmd (.abuild c) sh)
    (hthere : (sh.disk.file (r ++ [o]) depsName).isSome) :
    (runStep cmd (.abuild c) sh).disk.file (r ++ [o]) depsName =
      sh.disk.file (r ++ [o]) depsName := by
  have heffect := runStep_effect h hfit
  generalize runStep cmd (.abuild c) sh = sh' at heffect
  cases heffect with
  | abuildStopped => rfl
  | abuildBuilt _ o' d₁ d clock es ls _ _ _ _ hready hchange _ =>
    show d.file (r ++ [o]) depsName = _
    by_cases heq : o = o'
    · subst heq
      rw [hchange.files _ (by decide), hready.kept hthere]
    · have hframe := fun q hq => (hchange.frame q hq).trans (hready.frame hq)
      exact (unchanged_of_frame hframe heq).file List.prefix_rfl _

theorem isSome_of_member {d : Disk File} {p : Path} {n m : Str} {x : Obj}
    (h : (members d (p ++ [n])).lookup m = some x) : (d.file p n).isSome := by
  rw [members, Disk.fileAt_concat] at h
  cases hf : d.file p n with
  | some y => rfl
  | none =>
    rw [hf] at h
    exact absurd h (Option.some_ne_none x).symm

/-- **Calls for all that is needed**, then abuild.cmd: libadeps.a holds an object of every source of
every needed library, compiled with the current flags, whatever was there before. -/
theorem alibs_then_abuild {names : List (List Token)} {sh' : Shell} (h : Repository r e sh)
    (hhere : ConfigHere c) (hcomplete : complete (loadedEnv cmd c sh))
    (hfit : ∀ ns ∈ names, StepFits cmd (.alibs c ns) sh) (hlast : StepFits cmd (.abuild c) sh)
    (hneeded : ∀ l ∈ neededLibs (loadedEnv cmd c sh),
      l ∈ names.flatMap (calledLibs (loadedEnv cmd c sh)))
    (hrun : runs (runStep cmd) (calls c names ++ [.abuild c]) sh = sh') :
    HoldsNeeded (loadedEnv cmd c sh) (currentFlags (loadedEnv cmd c sh)) sh' := by
  obtain ⟨o, hout⟩ := hlast.2.2 hcomplete
  set env := loadedEnv cmd c sh with henv
  set mid := runs (runStep cmd) (calls c names) sh with hmid
  have hmember : ∀ l ∈ neededLibs env, ∀ s ∈ l.sources env,
      ∃ x, (members mid.disk (r ++ [o] ++ [depsName])).lookup (objectName s) = some x ∧
        x.src = s ∧ x.flags = l.flags env := by
    intro l hl s hs
    have hpair : (objectName s, (s, l.flags env)) ∈
        (archivedPairs env (names.flatMap (calledLibs env))).map fun x => (objectName x.1, x) :=
      List.mem_map.mpr ⟨_, mem_archivedPairs.mpr ⟨l, hneeded l hl, hs, rfl⟩, rfl⟩
    obtain ⟨y, hy⟩ := exists_lastWrite hpair
    have hafter := members_calls h hhere hfit hcomplete hout (objectName s)
    rw [← henv, hy, archivedPairs_value (mem_of_lastWrite hy) hpair, Option.some_or] at hafter
    obtain ⟨x, hx, heq⟩ := Option.map_eq_some_iff.mp hafter
    rw [Prod.mk.injEq] at heq
    exact ⟨x, hx, heq⟩
  obtain ⟨hrepo, hsame⟩ := after_calls h hhere hfit
  have habuild : StepFits cmd (.abuild c) mid := hsame.stepFits h.cwd hhere hlast
  -- png is needed, so there is an archive for abuild.cmd to leave alone
  obtain ⟨x, hx, _⟩ := hmember .png (png_mem_neededLibs env) _ (pngSource_mem env)
  have hkept := abuild_keeps_deps hrepo habuild (isSome_of_member hx)
  rw [runs_append, ← hmid, runs, runs] at hrun
  have hcwd : sh'.cwd = r := by
    rw [← hrun]
    exact (hrepo.step habuild).cwd
  have hmembers : members sh'.disk (r ++ [o] ++ [depsName]) =
      members mid.disk (r ++ [o] ++ [depsName]) := by
    rw [members, members, Disk.fileAt_concat, Disk.fileAt_concat, ← hrun, hkept]
  rw [HoldsNeeded, resolve_libadeps hout, hcwd, hmembers]
  exact hmember

end Calls

/-- zlib and then png, or png, zlib and png again. -/
theorem alibs_calls_agree_small :
    ((members (runs (runStep (.idle true)) (calls none [[libToken .zlib], [libToken .png]])
        smallRepository).disk (["atools".toList] ++ ["out-sdl_".toList] ++ [depsName])).lookup
          (objectName adlerSource)).map (fun x => (x.src, x.flags)) =
      ((members (runs (runStep (.idle true))
        (calls none [[libToken .png], [libToken .zlib], [libToken .png]]) smallRepository).disk
          (["atools".toList] ++ ["out-sdl_".toList] ++ [depsName])).lookup
            (objectName adlerSource)).map fun x => (x.src, x.flags) := by
  have hzlib := smallRepository_call (Or.inl rfl)
  have hpng := smallRepository_call (Or.inr rfl)
  refine alibs_calls_agree smallRepository_fresh.repository ⟨"config.txt".toList, by decide⟩
    smallRepository_settings.1 ?_ ?_ ?_ _ _
  · intro ns hns
    rcases List.mem_cons.mp hns with rfl | hns
    · exact hzlib
    · rw [List.mem_singleton.mp hns]
      exact hpng
  · intro ns hns
    rcases List.mem_cons.mp hns with rfl | hns
    · exact hpng
    · rcases List.mem_cons.mp hns with rfl | hns
      · exact hzlib
      · rw [List.mem_singleton.mp hns]
        exact hpng
  · intro l
    show l ∈ [.zlib, .png] ↔ l ∈ [.png, .zlib, .png]
    cases l <;> decide

/-- After `alibs.cmd zlib`, `alibs.cmd` and then `abuild.cmd` mend what abuild.cmd alone leaves out. -/
theorem alibs_then_abuild_zlib :
    HoldsNeeded (loadedEnv (.idle true) none zlibOnly)
      (currentFlags (loadedEnv (.idle true) none zlibOnly))
      (runs (runStep (.idle true)) (calls none [[]] ++ [.abuild none]) zlibOnly) := by
  have hrepo := smallRepository_fresh.repository
  have heffect := runStep_effect hrepo zlibOnly_step
  have hsame : SameOutside ["atools".toList] noFile smallRepository zlibOnly :=
    heffect.sameOutside fun c lines h => nomatch h
  have hhere : ConfigHere none := ⟨"config.txt".toList, by decide⟩
  have hloaded : loadedEnv (.idle true) none zlibOnly = loadedEnv (.idle true) none smallRepository :=
    hsame.loadedEnv rfl (n := "config.txt".toList) (by decide) id
  refine alibs_then_abuild (hrepo.effect heffect) hhere (by rw [hloaded]; exact
    smallRepository_settings.1) ?_ zlibOnly_clean.1 (fun l hl => ?_) rfl
  · intro ns hns
    rw [List.mem_singleton.mp hns]
    exact hsame.stepFits rfl hhere allLibs_step
  · rw [List.flatMap_singleton, calledLibs, List.map_nil, libsOf_targetLibs_nil]
    exact hl

end Atools
