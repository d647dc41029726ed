import Atools.Record

/-!
# The archive of dependencies over a run

abuild.cmd needs the libraries its settings ask for, and builds them only when there is no
libadeps.a in its out folder.  What that archive holds is decided by what was built into it before.
`noteDeps` keeps the record: for every out folder the sources compiled into its libadeps.a, with
their flags, in order.  The archive always agrees with the record (`recorded_of_run`), so after
abuild.cmd it holds what is needed exactly when the record has it (`holdsNeeded_iff`).
-/

namespace Atools

open Batch

/-! ### What an archive of dependencies should hold -/

/-- Whether flags turn on HarfBuzz in freetype. -/
def harfbuzzOption (flags : List Str) : Bool :=
  flags[2]? == some "-DFT_CONFIG_OPTION_USE_HARFBUZZ -I..\\..\\..\\harfbuzz\\src".toList

/-- The libadeps.a of the settings holds an object for every source of every needed library, and
the flags of the objects are in order. -/
def HoldsNeeded (env : Env) (inOrder : Lib → List Str → Prop) (sh : Shell) : Prop :=
  ∀ l ∈ neededLibs env, ∀ s ∈ l.sources env,
    ∃ x, (members sh.disk (resolve sh.cwd
        (env.text "LIBAROMA_OUT" ++ "\\libadeps.a".toList))).lookup (objectName s) = some x ∧
      x.src = s ∧ inOrder l x.flags

/-- Any flags will do. -/
def anyFlags (_ : Lib) (_ : List Str) : Prop := True

/-- Freetype is to have HarfBuzz exactly when the settings say so. -/
def freetypeFlags (env : Env) (l : Lib) (flags : List Str) : Prop :=
  l = .freetype → harfbuzzOption flags = isSet env "LIBAROMA_HARFBUZZ" "yes"

/-- The flags are to be those of the settings. -/
def currentFlags (env : Env) (l : Lib) (flags : List Str) : Prop := flags = l.flags env

theorem freetypeFlags_own (env : Env) (l : Lib) : freetypeFlags env l (l.flags env) := by
  rintro rfl
  rw [harfbuzzOption, Lib.flags]
  show (some (if isSet env "LIBAROMA_HARFBUZZ" "yes" then _ else _) == _) = _
  cases isSet env "LIBAROMA_HARFBUZZ" "yes" with
  | true => rfl
  | false => rfl

/-! ### The record -/

/-- What a step archives in libadeps.a: alibs.cmd the libraries it is called for, abuild.cmd the
needed ones when there is no such archive. -/
def noteDeps (cmd : Interpreter) : Step → Shell → Archives → Archives
  | .alibs c names, sh, g =>
    let env := (alibsSettings cmd (argList c names) sh).env
    noteOut env (fun xs => xs.getD [] ++
      archivedPairs env (libsOf (targetLibs env (names.map Token.text)))) g
  | .abuild c, sh, g =>
    let env := loadedEnv cmd c sh
    noteOut env (fun xs => xs.getD (archivedPairs env (neededLibs env))) g
  | .edit _ _, _, g => g
  | .fetch _, _, g => g

/-- The disk agrees with the record, and the record is about sources of the libraries. -/
structure Recorded (r : Path) (g : Archives) (d : Disk File) : Prop where
  holds : ∀ o, outFolderName o → ArchiveHolds d (r ++ [o]) depsName (g o)
  sources : ∀ o xs, g o = some xs → ∀ x ∈ xs, x.1 ∈ allSources

theorem mem_allSources_of_archived {env : Env} {ls : List Lib} {x : Str × List Str}
    (h : x ∈ archivedPairs env ls) : x.1 ∈ allSources := by
  obtain ⟨l, _, hs, _⟩ := mem_archivedPairs.mp h
  exact mem_allSources hs

/-! ### A step keeps the record right -/

theorem DepsChange.holds {d d' : Disk File} {r : Path} {o : Str} {env : Env} {t : ℕ}
    {ls : List Lib} {ox : Option (List (Str × List Str))}
    (hchange : DepsChange d d' r o (libWrites env t ls))
    (h : ArchiveHolds d (r ++ [o]) depsName ox) :
    ArchiveHolds d' (r ++ [o]) depsName (some (ox.getD [] ++ archivedPairs env ls)) := by
  obtain ⟨a, ha, hlookup⟩ := hchange.archive
  exact h.extend ha hlookup (map_libWrites env t ls)

theorem SameBuild.calledLibs {env env' : Env} (h : SameBuild env env') (names : List Str) :
    libsOf (targetLibs env' names) = libsOf (targetLibs env names) := by
  rw [targetLibs, targetLibs]
  split
  · rw [defaultLibs_eq, defaultLibs_eq, libsOf_names, libsOf_names, h.neededLibs]
  · rfl

/-- The archive of dependencies that abuild.cmd works with. -/
theorem DepsReady.holds {lines : List Line} {env : Env} {d d' : Disk File} {r : Path} {o : Str}
    {t : ℕ} {ls : List (Path × Env)} {ox : Option (List (Str × List Str))}
    (hready : DepsReady lines env d d' r o t ls) (h : ArchiveHolds d (r ++ [o]) depsName ox) :
    ArchiveHolds d' (r ++ [o]) depsName
      (some (ox.getD (archivedPairs env (neededLibs env)))) := by
  cases hready with
  | there hsome heq =>
    cases ox with
    | none =>
      rw [show d.file (r ++ [o]) depsName = none from h] at hsome
      exact absurd hsome Bool.false_ne_true
    | some xs =>
      rw [heq]
      exact h
  | made cfg env₂ env' hnone _ hsame hchange =>
    cases ox with
    | none =>
      have hnew := hchange.holds h
      rw [hsame.neededLibs, hsame.archivedPairs] at hnew
      exact hnew
    | some xs =>
      obtain ⟨a, ha, _⟩ := h
      exact absurd (hnone.symm.trans ha) (Option.some_ne_none _).symm

variable {cmd : Interpreter} {r : Path} {e : Env} {sh sh' : Shell} {g : Archives} {a : Step}

/-- What is recorded for an out folder is about library sources. -/
theorem Recorded.mem_sources (h : Recorded r g sh.disk) (o : Str) {ys : List (Str × List Str)}
    (hys : ∀ x ∈ ys, x.1 ∈ allSources) : ∀ x ∈ (g o).getD ys, x.1 ∈ allSources := by
  cases hg : g o with
  | none => exact hys
  | some xs => exact h.sources o xs hg

theorem Recorded.effect (h : Recorded r g sh.disk) (he : Effect cmd r sh a sh') :
    Recorded r (noteDeps cmd a sh g) sh'.disk := by
  cases he with
  | alibsStopped c names es hstop =>
    rw [noteDeps, noteOut_incomplete _ _ hstop]
    exact h
  | abuildStopped c es hstop =>
    rw [noteDeps, noteOut_incomplete _ _ hstop]
    exact h
  | edited c lines n hn =>
    refine ⟨fun o ho => (h.holds o ho).congr ?_, h.sources⟩
    exact (unchanged_of_edit _ _ hn ho _).file List.prefix_rfl _
  | fetched t => exact h
  | alibsBuilt c names o d clock es hcomplete hout ho _ hchange =>
    have hsame := alibsEnv_sameBuild cmd (argList c names) sh
    have hnew := hchange.holds (h.holds o ho)
    rw [hsame.archivedPairs, hsame.calledLibs] at hnew
    rw [noteDeps]
    refine ⟨holds_noteOut h.holds hout hcomplete hchange.frame hnew,
      forall_noteOut h.sources hout hcomplete fun x hx => ?_⟩
    rcases List.mem_append.mp hx with hx | hx
    · exact h.mem_sources o (by simp) x hx
    · exact mem_allSources_of_archived hx
  | abuildBuilt c o d₁ d clock es ls hcomplete hout ho _ hready hchange _ =>
    have hnew := (hready.holds (h.holds o ho)).congr (hchange.files depsName (by decide))
    have hframe : ∀ q, ¬ r ++ [o] <+: q → d.folder q = sh.disk.folder q := fun q hq =>
      (hchange.frame q hq).trans (hready.frame hq)
    rw [noteDeps]
    exact ⟨holds_noteOut h.holds hout hcomplete hframe hnew,
      forall_noteOut h.sources hout hcomplete
        (h.mem_sources o fun _ => mem_allSources_of_archived)⟩

/-- **The archives over a run** of fitting steps agree with the record. -/
theorem recorded_of_run (h : Fresh r e sh) {steps : List Step}
    (hfit : AllFit (runStep cmd) (StepFits cmd) steps sh) :
    Repository r e (runs (runStep cmd) steps sh) ∧
      Recorded r (records (runStep cmd) (noteDeps cmd) steps sh noArchives)
        (runs (runStep cmd) steps sh).disk := by
  have hstart : Recorded r noArchives sh.disk :=
    ⟨fun o ho => h.file ho depsName, fun o xs hxs => absurd hxs (Option.some_ne_none xs).symm⟩
  have hstep : ∀ a sh g, Repository r e sh ∧ Recorded r g sh.disk → StepFits cmd a sh →
      Repository r e (runStep cmd a sh) ∧
        Recorded r (noteDeps cmd a sh g) (runStep cmd a sh).disk :=
    fun a sh g hrel hfit => ⟨hrel.1.step hfit, hrel.2.effect (runStep_effect hrel.1 hfit)⟩
  exact related_of_run (P := fun sh g => Repository r e sh ∧ Recorded r g sh.disk) hstep
    ⟨h.repository, hstart⟩ hfit

/-! ### What is needed -/

/-- The record has every source of every needed library, last compiled with flags in order. -/
def RecordsNeeded (env : Env) (inOrder : Lib → List Str → Prop) (xs : List (Str × List Str)) :
    Prop :=
  ∀ l ∈ neededLibs env, ∀ s ∈ l.sources env, ∃ f, lastWrite s xs = some f ∧ inOrder l f

/-- On library sources the record by object name is the record by source. -/
theorem lastWrite_objectName {xs : List (Str × List Str)} {s : Str} (hs : s ∈ allSources)
    (hxs : ∀ x ∈ xs, x.1 ∈ allSources) :
    lastWrite (objectName s) (xs.map fun x => (objectName x.1, x)) =
      (lastWrite s xs).map fun f => (s, f) := by
  induction xs with
  | nil => rfl
  | cons x xs ih =>
    rw [List.map_cons, lastWrite, lastWrite, ih fun y hy => hxs y (List.mem_cons_of_mem _ hy)]
    cases lastWrite s xs with
    | some f => rfl
    | none =>
      rw [Option.map_none, Option.none_or, Option.none_or]
      by_cases hx : x.1 = s
      · subst hx
        rw [if_pos rfl, if_pos rfl]; rfl
      · rw [if_neg hx, if_neg fun heq => hx (objectName_inj (hxs x List.mem_cons_self) hs heq)]
        rfl

/-- **Needed and recorded.**  An archive that agrees with a record holds what is needed exactly when
the record has it. -/
theorem holdsNeeded_iff {env : Env} {o : Str} {xs : List (Str × List Str)}
    (hcwd : sh.cwd = r) (hout : OutNamed env o) (h : ArchiveHolds sh.disk (r ++ [o]) depsName (some xs))
    (hxs : ∀ x ∈ xs, x.1 ∈ allSources) (inOrder : Lib → List Str → Prop) :
    HoldsNeeded env inOrder sh ↔ RecordsNeeded env inOrder xs := by
  obtain ⟨a, ha, hlookup⟩ := h
  have hmembers : members sh.disk (r ++ [o] ++ [depsName]) = a := by
    rw [members, Disk.fileAt_concat, ha]
  rw [HoldsNeeded, RecordsNeeded, resolve_libadeps hout, hcwd, hmembers]
  apply forall₂_congr
  intro l _
  apply forall₂_congr
  intro s hs
  have hs' := hlookup (objectName s)
  rw [lastWrite_objectName (mem_allSources hs) hxs] at hs'
  constructor
  · rintro ⟨x, hx, hsrc, hflags⟩
    rw [hx, Option.map_some, hsrc] at hs'
    obtain ⟨f, hf, heq⟩ := Option.map_eq_some_iff.mp hs'.symm
    have hf' : f = x.flags := (Prod.ext_iff.mp heq).2
    refine ⟨f, hf, ?_⟩
    rw [hf']
    exact hflags
  · rintro ⟨f, hf, hflags⟩
    rw [hf, Option.map_some] at hs'
    obtain ⟨x, hx, heq⟩ := Option.map_eq_some_iff.mp hs'
    rw [Prod.mk.injEq] at heq
    refine ⟨x, hx, heq.1, ?_⟩
    rw [heq.2]
    exact hflags

/-- What has just been built is in the record, with the flags of the settings. -/
theorem recordsNeeded_own {env : Env} {inOrder : Lib → List Str → Prop}
    (hown : ∀ l, inOrder l (l.flags env)) :
    RecordsNeeded env inOrder (archivedPairs env (neededLibs env)) := by
  intro l hl s hs
  obtain ⟨f, hf⟩ := exists_lastWrite (mem_archivedPairs.mpr ⟨l, hl, hs, rfl⟩)
  obtain ⟨l', _, hs', rfl⟩ := mem_archivedPairs.mp (mem_of_lastWrite hf)
  refine ⟨l'.flags env, hf, ?_⟩
  rw [Lib.eq_of_mem_sources hs' hs]
  exact hown l

/-- The record has what the settings need in their out folder, or nothing has been archived there. -/
def InRecord (env : Env) (inOrder : Lib → List Str → Prop) (g : Archives) : Prop :=
  ∀ o ∈ outFolder env, ∀ xs ∈ g o, RecordsNeeded env inOrder xs

/-- **After abuild.cmd** the needed libraries are there if they were recorded. -/
theorem abuild_holdsNeeded {c : Option Token} (hrepo : Repository r e sh)
    (hrec : Recorded r g sh.disk) (hfit : StepFits cmd (.abuild c) sh)
    (hcomplete : complete (loadedEnv cmd c sh)) {inOrder : Lib → List Str → Prop}
    (hown : ∀ l, inOrder l (l.flags (loadedEnv cmd c sh))) :
    HoldsNeeded (loadedEnv cmd c sh) inOrder (abuild cmd (cfgArg c) sh) ↔
      InRecord (loadedEnv cmd c sh) inOrder g := by
  obtain ⟨o, hout⟩ := hfit.2.2 hcomplete
  have ho := outFolderName_of_load hcomplete hout
  have heffect := runStep_effect hrepo hfit
  have hafter := hrec.effect heffect
  have hnote : noteDeps cmd (.abuild c) sh g o =
      some ((g o).getD (archivedPairs (loadedEnv cmd c sh) (neededLibs (loadedEnv cmd c sh)))) := by
    rw [noteDeps]
    exact noteOut_self _ _ hout hcomplete
  have hholds := hafter.holds o ho
  rw [hnote] at hholds
  rw [← runStep, holdsNeeded_iff (hrepo.effect heffect).cwd hout hholds (hafter.sources o _ hnote)]
  exact getD_iff_forall hout g (recordsNeeded_own hown)

/-- **The dependencies of abuild.cmd, over every run.**  Right after it libadeps.a holds the objects
of the needed libraries, freetype compiled as the settings ask, or all of them compiled as the
settings ask, exactly when what was archived there before does, or nothing was. -/
theorem abuild_dependencies_iff {cmd : Interpreter} {r : Path} {e : Env} {sh sh' : Shell}
    {steps : List Step} {c : Option Token} (h : Fresh r e sh)
    (hfit : AllFit (runStep cmd) (StepFits cmd) steps sh)
    (hrun : runs (runStep cmd) steps sh = sh') (hlast : StepFits cmd (.abuild c) sh')
    (hcomplete : complete (loadedEnv cmd c sh')) :
    (HoldsNeeded (loadedEnv cmd c sh') anyFlags (abuild cmd (cfgArg c) sh') ↔
      InRecord (loadedEnv cmd c sh') anyFlags
        (records (runStep cmd) (noteDeps cmd) steps sh noArchives)) ∧
    (HoldsNeeded (loadedEnv cmd c sh') (freetypeFlags (loadedEnv cmd c sh'))
        (abuild cmd (cfgArg c) sh') ↔
      InRecord (loadedEnv cmd c sh') (freetypeFlags (loadedEnv cmd c sh'))
        (records (runStep cmd) (noteDeps cmd) steps sh noArchives)) ∧
    (HoldsNeeded (loadedEnv cmd c sh') (currentFlags (loadedEnv cmd c sh'))
        (abuild cmd (cfgArg c) sh') ↔
      InRecord (loadedEnv cmd c sh') (currentFlags (loadedEnv cmd c sh'))
        (records (runStep cmd) (noteDeps cmd) steps sh noArchives)) := by
  obtain ⟨hrepo, hrec⟩ := recorded_of_run h hfit
  rw [hrun] at hrepo hrec
  refine ⟨?_, ?_, ?_⟩
  · exact abuild_holdsNeeded hrepo hrec hlast hcomplete fun _ => trivial
  · exact abuild_holdsNeeded hrepo hrec hlast hcomplete (freetypeFlags_own _)
  · exact abuild_holdsNeeded hrepo hrec hlast hcomplete fun _ => rfl

/-- png is always needed. -/
theorem png_mem_neededLibs (env : Env) : .png ∈ neededLibs env := by
  rw [neededLibs]
  exact List.mem_append_left _ (List.mem_append_left _ (List.mem_append_left _ (by decide)))

theorem pngSource_mem (env : Env) : "..\\..\\..\\png\\png.c".toList ∈ Lib.png.sources env :=
  List.mem_append_right _ List.mem_cons_self

/-- A repository with the smallest configuration. -/
def smallRepository : Shell :=
  freshRepository ["atools".toList] [("config.txt".toList, .text smallConfig)] smallTree

theorem smallRepository_fresh : Fresh ["atools".toList] (fun _ => none) smallRepository := by
  apply fresh_freshRepository
  intro w hw
  rw [List.mem_singleton.mp hw, outFolderName]
  decide

theorem smallRepository_settings : complete (loadedEnv (.idle true) none smallRepository) ∧
    OutNamed (loadedEnv (.idle true) none smallRepository) "out-sdl_".toList := by
  decide +kernel

theorem smallRepository_usable : Usable (loadedEnv (.idle true) none smallRepository) := by
  decide +kernel

theorem smallRepository_fits : StepFits (.idle true) (.abuild none) smallRepository :=
  ⟨invoked_plain (by decide +kernel), smallRepository_usable,
    fun _ => ⟨_, smallRepository_settings.2⟩⟩

/-- alibs.cmd comes to settings for the same out folder. -/
theorem smallRepository_alibs {names : List Token} (hinv : Invoked smallRepository none names) :
    FullSettings (alibsSettings (.idle true) (argList none names) smallRepository).env
      "out-sdl_".toList := by
  obtain ⟨hcomplete, hout⟩ := smallRepository_settings
  have hbuild := hinv.sameBuild hcomplete
  exact ⟨(hinv.sameSettings hcomplete).complete_iff.mpr hcomplete,
    hbuild.usable smallRepository_usable, hbuild.outNamed hout⟩

/-- The small repository after `alibs.cmd`. -/
def allLibs : Shell := runStep (.idle true) (.alibs none []) smallRepository

theorem allLibs_step : StepFits (.idle true) (.alibs none []) smallRepository := by
  have hsettings := smallRepository_alibs smallRepository_fits.1
  exact ⟨smallRepository_fits.1, Nat.zero_le 6, fun _ hn => absurd hn List.not_mem_nil,
    hsettings.usable, fun _ => ⟨_, hsettings.out⟩⟩

/-- Without names alibs.cmd is called for the libraries that are needed. -/
theorem libsOf_targetLibs_nil (env : Env) : libsOf (targetLibs env []) = neededLibs env := by
  rw [targetLibs, if_pos rfl, defaultLibs_eq, libsOf_names]

/-- `alibs.cmd`, then `abuild.cmd`: all that is needed is there, with the current flags. -/
theorem abuild_dependencies_libs :
    HoldsNeeded (loadedEnv (.idle true) none allLibs)
      (currentFlags (loadedEnv (.idle true) none allLibs))
      (abuild (.idle true) (cfgArg none) allLibs) := by
  have hrepo := smallRepository_fresh.repository
  obtain ⟨hfit, hloaded⟩ := smallRepository_fits.kept hrepo (runStep_effect hrepo allLibs_step)
    fun c lines h => nomatch h
  rw [← allLibs] at hfit hloaded
  have hcomplete := smallRepository_settings.1
  have hiff := @abuild_dependencies_iff (.idle true) _ _ _ allLibs [.alibs none []] none
    smallRepository_fresh ⟨allLibs_step, trivial⟩ rfl hfit (by rw [hloaded]; exact hcomplete)
  refine hiff.2.2.mpr ?_
  rw [hloaded]
  have hbuild := allLibs_step.1.sameBuild hcomplete
  have hsettings := smallRepository_alibs allLibs_step.1
  intro o ho xs hxs
  -- what is recorded is what was compiled for the libraries that are needed
  obtain rfl : "out-sdl_".toList = o :=
    Option.some.inj ((outFolder_of_named smallRepository_settings.2).symm.trans ho)
  rw [records, records, noteDeps, noteOut_self _ _ hsettings.out hsettings.complete] at hxs
  obtain rfl := Option.mem_some_iff.mp hxs
  rw [List.map_nil, libsOf_targetLibs_nil, hbuild.neededLibs, hbuild.archivedPairs]
  exact recordsNeeded_own fun _ => rfl

/-- A call for one library in the small repository. -/
theorem smallRepository_call {l : Lib} (hl : l = .zlib ∨ l = .png) :
    StepFits (.idle true) (.alibs none [libToken l]) smallRepository := by
  have hinv : Invoked smallRepository none [libToken l] := by
    refine ⟨fun t ht => absurd ht (Option.not_mem_none t), fun _ n hn => ?_, fun _ _ => rfl,
      smallRepository_fits.1.switches, fun _ => by decide +kernel⟩
    obtain rfl : libToken l = n := by simpa using hn
    rcases hl with rfl | rfl
    · decide +kernel
    · decide +kernel
  have hsettings := smallRepository_alibs hinv
  refine ⟨hinv, by simp, fun n hn => ?_, hsettings.usable, fun _ => ⟨_, hsettings.out⟩⟩
  rw [List.mem_singleton.mp hn]
  exact Option.isSome_of_eq_some (Lib.ofName_name l)

/-- The small repository after `alibs.cmd zlib`. -/
def zlibOnly : Shell := runStep (.idle true) (.alibs none [libToken .zlib]) smallRepository

theorem zlibOnly_step : StepFits (.idle true) (.alibs none [libToken .zlib]) smallRepository :=
  smallRepository_call (Or.inl rfl)

theorem zlibOnly_settings :
    FullSettings (alibsSettings (.idle true) (argList none [libToken .zlib]) smallRepository).env
      "out-sdl_".toList :=
  smallRepository_alibs zlibOnly_step.1

theorem zlibOnly_record :
    records (runStep (.idle true)) (noteDeps (.idle true)) [.alibs none [libToken .zlib]]
        smallRepository noArchives "out-sdl_".toList =
      some (archivedPairs (alibsSettings (.idle true) (argList none [libToken .zlib])
        smallRepository).env [.zlib]) := by
  rw [records, records, noteDeps, noteOut_self _ _ zlibOnly_settings.out zlibOnly_settings.complete]
  rfl

/-- `alibs.cmd zlib`, then `abuild.cmd`: png and freetype are left out, because libadeps.a is there
already. -/
theorem abuild_lacks_dependencies :
    ¬ HoldsNeeded (loadedEnv (.idle true) none zlibOnly) anyFlags
      (abuild (.idle true) (cfgArg none) zlibOnly) := by
  have hrepo := smallRepository_fresh.repository
  obtain ⟨hfit, hloaded⟩ := smallRepository_fits.kept hrepo (runStep_effect hrepo zlibOnly_step)
    fun c lines h => nomatch h
  have hrun := @recorded_of_run (.idle true) _ _ _ smallRepository_fresh
    [.alibs none [libToken .zlib]] ⟨zlibOnly_step, trivial⟩
  have hsettings := smallRepository_settings
  rw [← hloaded] at hsettings
  intro h
  have hin := (abuild_holdsNeeded hrun.1 hrun.2 hfit hsettings.1 fun _ => trivial).mp h
  have hneeded := hin _ (outFolder_of_named hsettings.2) _ zlibOnly_record
  obtain ⟨f, hf, _⟩ := hneeded .png (png_mem_neededLibs _) _ (pngSource_mem _)
  -- the record of the out folder is what was compiled for zlib
  obtain ⟨l, hl, hs, _⟩ := mem_archivedPairs.mp (mem_of_lastWrite hf)
  obtain rfl : l = .zlib := List.mem_singleton.mp hl
  exact absurd (Lib.eq_of_mem_sources hs (pngSource_mem fun _ => none)) (by decide)

end Atools
